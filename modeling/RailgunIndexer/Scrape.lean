import RailgunIndexer.Store
import RailgunIndexer.Lib.Loop

/-!
# Page sizes and retries of the scraper

A scraper reads an upstream page by page. Pages grow while they succeed and shrink when they fail. A
page that failed for a reason that may pass is tried again, up to a budget at each page size, and given
up when the budget is spent at the smallest size.
-/

namespace RailgunIndexer

open Lib

/-! ### Page sizes -/

def upstreamMaxPageSize : Nat := 100

def growAfterSuccesses : Nat := 2

structure PageSizeAdapter where
  currentSize : Nat
  maxSize : Nat
  minSize : Nat
  consecutiveSuccesses : Nat
  consecutiveFailures : Nat
  deriving DecidableEq

def clamp (lower upper value : Nat) : Nat := max lower (min value upper)

namespace PageSizeAdapter

def new (currentSize maxSize minSize : Nat) : PageSizeAdapter :=
  let maxSize := clamp 1 upstreamMaxPageSize maxSize
  let minSize := clamp 1 maxSize minSize
  ⟨clamp minSize maxSize currentSize, maxSize, minSize, 0, 0⟩

def onSuccess (adapter : PageSizeAdapter) : PageSizeAdapter :=
  let successes := adapter.consecutiveSuccesses + 1
  if successes < growAfterSuccesses ∨ adapter.currentSize = adapter.maxSize then
    { adapter with consecutiveSuccesses := successes, consecutiveFailures := 0 }
  else
    { adapter with
      currentSize := min (min (adapter.currentSize * 2) (u64Bound - 1)) adapter.maxSize
      consecutiveSuccesses := 0
      consecutiveFailures := 0 }

def onFailure (adapter : PageSizeAdapter) : PageSizeAdapter :=
  { adapter with
    currentSize := max (adapter.currentSize / 2) adapter.minSize
    consecutiveSuccesses := 0
    consecutiveFailures := adapter.consecutiveFailures + 1 }

end PageSizeAdapter

/-! ### Errors -/

inductive PoiRpcError where
  | post
  | httpStatus (status : Nat)
  | response (message : String)
  deriving DecidableEq

inductive ScrapeError where
  | poiRpc (error : PoiRpcError)
  | verify (reason : String)
  | invalidEventSignature (eventIndex : Nat) (reason : String)
  | cache (reason : String)
  | store (error : StoreError)
  | rootRejected
  | nonContiguousEvent (expected actual : Nat)
  | eventSignature
  | missingRoot (treeNumber : Nat)
  | indexOverflow (lastEventIndex : Nat)
  | retryBudgetExhausted (attempts pageSize : Nat) (source : ScrapeError)
  deriving DecidableEq

/-- A request that failed on its way, an error of the server, or too many requests. -/
def ScrapeError.isRetryable : ScrapeError → Bool
  | .poiRpc .post => true
  | .poiRpc (.httpStatus status) => (500 ≤ status && status < 600) || status == 429
  | _ => false

/-! ### Retries -/

/-- What happens to the attempts of a call: their results in order, and whether a shutdown is requested
before an attempt that starts a round, or during the pause after an attempt. -/
structure PageAttempts (α : Type) where
  result : Nat → Except ScrapeError α
  shutdownRequested : Nat → Bool
  shutdownInBackoff : Nat → Bool

/-- The attempts of the present round, and of the call so far. -/
structure RetryState where
  pageSize : PageSizeAdapter
  attempts : Nat
  performed : Nat
  deriving DecidableEq

section Retry

variable {α : Type} (budget : Nat) (attempts : PageAttempts α)

def afterRetryable (state : RetryState) (error : ScrapeError) :
    Except ScrapeError (Loop.Turn RetryState (Option α)) :=
  if state.attempts + 1 < budget then
    if attempts.shutdownInBackoff state.performed then .ok (.done none)
    else .ok (.again ⟨state.pageSize, state.attempts + 1, state.performed + 1⟩)
  else if state.pageSize.onFailure.currentSize = state.pageSize.currentSize then
    .error (.retryBudgetExhausted (state.attempts + 1) state.pageSize.currentSize error)
  else
    .ok (.again ⟨state.pageSize.onFailure, 0, state.performed + 1⟩)

/-- One attempt. A round of attempts starts with a look at the shutdown signal. -/
def retryTurn (state : RetryState) : Except ScrapeError (Loop.Turn RetryState (Option α)) :=
  if state.attempts = 0 ∧ attempts.shutdownRequested state.performed = true then .ok (.done none)
  else
    match attempts.result state.performed with
    | .ok outcome => .ok (.done (some outcome))
    | .error error =>
        if error.isRetryable then afterRetryable budget attempts state error else .error error

def pageWithRetry (fuel : Nat) (pageSize : PageSizeAdapter) :
    Option (RetryState × Except ScrapeError (Option α)) :=
  Loop.run (retryTurn budget attempts) fuel ⟨pageSize, 0, 0⟩

end Retry

inductive SyncPageOutcome where
  | caughtUp
  | ingested (count lastEventIndex : Nat)
  deriving DecidableEq

structure SignedBlockedShield where
  commitmentHash : String
  blindedCommitment : String
  blockReason : Option String
  signature : String
  deriving DecidableEq

inductive BlockedShieldPageOutcome where
  | caughtUp
  | ingested (records : List SignedBlockedShield)
  deriving DecidableEq

def syncNextPageWithRetry (budget : Nat) (attempts : PageAttempts SyncPageOutcome) (fuel : Nat)
    (pageSize : PageSizeAdapter) :
    Option (RetryState × Except ScrapeError (Option SyncPageOutcome)) :=
  pageWithRetry budget attempts fuel pageSize

def syncBlockedShieldsPageWithRetry (budget : Nat) (attempts : PageAttempts BlockedShieldPageOutcome)
    (fuel : Nat) (pageSize : PageSizeAdapter) :
    Option (RetryState × Except ScrapeError (Option BlockedShieldPageOutcome)) :=
  pageWithRetry budget attempts fuel pageSize

end RailgunIndexer
