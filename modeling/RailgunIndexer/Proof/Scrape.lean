import RailgunIndexer.Scrape

/-!
# Retries end

The page size stays within its bounds. Every round of attempts that spends its budget leaves a smaller
page size, until the smallest is reached, so the attempts still allowed fall with every attempt: those
of the present round, and a whole budget for each halving still to come.
-/

namespace RailgunIndexer

open Lib

/-! ### Page sizes -/

section PageSizes

variable {adapter : PageSizeAdapter}

inductive PageSizeAdapter.Built : PageSizeAdapter → Prop
  | new (currentSize maxSize minSize : Nat) : Built (.new currentSize maxSize minSize)
  | onSuccess {adapter : PageSizeAdapter} (hbuilt : adapter.Built) : Built adapter.onSuccess
  | onFailure {adapter : PageSizeAdapter} (hbuilt : adapter.Built) : Built adapter.onFailure

structure PageSizeAdapter.Legal (adapter : PageSizeAdapter) : Prop where
  min_pos : 1 ≤ adapter.minSize
  min_le : adapter.minSize ≤ adapter.currentSize
  le_max : adapter.currentSize ≤ adapter.maxSize
  max_le : adapter.maxSize ≤ upstreamMaxPageSize

theorem legal_new (currentSize maxSize minSize : Nat) :
    (PageSizeAdapter.new currentSize maxSize minSize).Legal := by
  have hmaxPos : 1 ≤ clamp 1 upstreamMaxPageSize maxSize := Nat.le_max_left _ _
  have hmaxLe : clamp 1 upstreamMaxPageSize maxSize ≤ upstreamMaxPageSize :=
    Nat.max_le.mpr ⟨by decide, Nat.min_le_right _ _⟩
  have hminLe : clamp 1 (clamp 1 upstreamMaxPageSize maxSize) minSize
      ≤ clamp 1 upstreamMaxPageSize maxSize := Nat.max_le.mpr ⟨hmaxPos, Nat.min_le_right _ _⟩
  exact ⟨Nat.le_max_left _ _, Nat.le_max_left _ _,
    Nat.max_le.mpr ⟨hminLe, Nat.min_le_right _ _⟩, hmaxLe⟩

theorem PageSizeAdapter.Legal.onSuccess (hlegal : adapter.Legal) : adapter.onSuccess.Legal := by
  have hbound : adapter.currentSize ≤ u64Bound - 1 :=
    (hlegal.le_max.trans hlegal.max_le).trans (by decide)
  rw [PageSizeAdapter.onSuccess]
  split_ifs
  · exact ⟨hlegal.min_pos, hlegal.min_le, hlegal.le_max, hlegal.max_le⟩
  · refine ⟨hlegal.min_pos, ?_, Nat.min_le_right _ _, hlegal.max_le⟩
    apply hlegal.min_le.trans
    have hdouble : adapter.currentSize ≤ adapter.currentSize * 2 :=
      Nat.le_mul_of_pos_right _ Nat.two_pos
    exact Nat.le_min.mpr ⟨Nat.le_min.mpr ⟨hdouble, hbound⟩, hlegal.le_max⟩

theorem PageSizeAdapter.Legal.onFailure (hlegal : adapter.Legal) : adapter.onFailure.Legal := by
  refine ⟨hlegal.min_pos, Nat.le_max_right _ _, ?_, hlegal.max_le⟩
  apply Nat.max_le.mpr
  exact ⟨(Nat.div_le_self _ _).trans hlegal.le_max, hlegal.min_le.trans hlegal.le_max⟩

theorem PageSizeAdapter.Built.legal (hbuilt : adapter.Built) : adapter.Legal := by
  induction hbuilt with
  | new currentSize maxSize minSize => exact legal_new currentSize maxSize minSize
  | onSuccess _ ih => exact ih.onSuccess
  | onFailure _ ih => exact ih.onFailure

/-! ### Halvings -/

def halvings (minSize size : Nat) : Nat :=
  if size ≤ minSize then 0 else halvings minSize (max (size / 2) minSize) + 1
termination_by size
decreasing_by omega

theorem PageSizeAdapter.Legal.halvings_onFailure (hlegal : adapter.Legal)
    (hshrinks : adapter.onFailure.currentSize ≠ adapter.currentSize) :
    halvings adapter.minSize adapter.currentSize
      = halvings adapter.onFailure.minSize adapter.onFailure.currentSize + 1 := by
  have hgt : ¬ adapter.currentSize ≤ adapter.minSize := by
    intro hle
    apply hshrinks
    have heq := Nat.le_antisymm hle hlegal.min_le
    rw [PageSizeAdapter.onFailure]
    dsimp only
    omega
  rw [halvings, if_neg hgt]
  rfl

theorem PageSizeAdapter.eq_minSize (hstays : adapter.onFailure.currentSize = adapter.currentSize) :
    adapter.currentSize = adapter.minSize := by
  rw [PageSizeAdapter.onFailure] at hstays
  dsimp only at hstays
  omega

end PageSizes

/-! ### One attempt -/

section Retries

variable {α : Type} {budget : Nat} {attempts : PageAttempts α} {state next : RetryState}
  {error : ScrapeError}

structure NoShutdown (attempts : PageAttempts α) : Prop where
  requested : ∀ index, attempts.shutdownRequested index = false
  backoff : ∀ index, attempts.shutdownInBackoff index = false

/-- The attempts so far failed and may be tried again, and the present round has some left. -/
structure Retrying (budget minSize : Nat) (attempts : PageAttempts α) (state : RetryState) : Prop where
  legal : state.pageSize.Legal
  minSize : state.pageSize.minSize = minSize
  left : state.attempts < budget
  failed : ∀ index < state.performed,
    ∃ error, attempts.result index = .error error ∧ error.isRetryable = true

def attemptsLeft (budget : Nat) (state : RetryState) : Nat :=
  budget * halvings state.pageSize.minSize state.pageSize.currentSize + (budget - state.attempts)

theorem retryTurn_of_ok (hrunning : NoShutdown attempts) {outcome : α}
    (hresult : attempts.result state.performed = .ok outcome) :
    retryTurn budget attempts state = .ok (.done (some outcome)) := by
  rw [retryTurn, hrunning.requested, if_neg fun hrequested => Bool.false_ne_true hrequested.2,
    hresult]

theorem retryTurn_of_error (hrunning : NoShutdown attempts) {error : ScrapeError}
    (hresult : attempts.result state.performed = .error error) :
    retryTurn budget attempts state
      = if error.isRetryable then afterRetryable budget attempts state error else .error error := by
  rw [retryTurn, hrunning.requested, if_neg fun hrequested => Bool.false_ne_true hrequested.2,
    hresult]

theorem afterRetryable_eq (hrunning : NoShutdown attempts) :
    afterRetryable budget attempts state error
      = if state.attempts + 1 < budget then
          .ok (.again ⟨state.pageSize, state.attempts + 1, state.performed + 1⟩)
        else if state.pageSize.onFailure.currentSize = state.pageSize.currentSize then
          .error (.retryBudgetExhausted (state.attempts + 1) state.pageSize.currentSize error)
        else
          .ok (.again ⟨state.pageSize.onFailure, 0, state.performed + 1⟩) := by
  rw [afterRetryable, hrunning.backoff, if_neg Bool.false_ne_true]

variable {minSize : Nat}

theorem Retrying.failed_succ (hretrying : Retrying budget minSize attempts state)
    (hresult : attempts.result state.performed = .error error)
    (hretryable : error.isRetryable = true) : ∀ index < state.performed + 1,
      ∃ error, attempts.result index = .error error ∧ error.isRetryable = true := by
  intro index hindex
  rcases Nat.lt_succ_iff_lt_or_eq.mp hindex with hindex | rfl
  · exact hretrying.failed index hindex
  · exact ⟨error, hresult, hretryable⟩

theorem Retrying.again (hrunning : NoShutdown attempts)
    (hretrying : Retrying budget minSize attempts state)
    (hturn : retryTurn budget attempts state = .ok (.again next)) :
    Retrying budget minSize attempts next ∧ attemptsLeft budget next < attemptsLeft budget state := by
  cases hresult : attempts.result state.performed with
  | ok outcome =>
      rw [retryTurn_of_ok hrunning hresult] at hturn
      cases hturn
  | error error =>
      rw [retryTurn_of_error hrunning hresult] at hturn
      split_ifs at hturn with hretryable
      rw [afterRetryable_eq hrunning] at hturn
      have hfailed := hretrying.failed_succ hresult hretryable
      have hleft := hretrying.left
      split_ifs at hturn with hround hstays
      · cases hturn
        refine ⟨⟨hretrying.legal, hretrying.minSize, hround, hfailed⟩, ?_⟩
        rw [attemptsLeft, attemptsLeft]
        dsimp only
        omega
      · cases hturn
        refine ⟨⟨hretrying.legal.onFailure, hretrying.minSize, Nat.zero_lt_of_lt hleft, hfailed⟩, ?_⟩
        rw [attemptsLeft, attemptsLeft, hretrying.legal.halvings_onFailure hstays, Nat.mul_add_one]
        dsimp only
        omega

/-- How a call ends: with a page, with an error that is not tried again, or with a budget that is spent
at the smallest size. -/
inductive EndsWith (budget minSize : Nat) (attempts : PageAttempts α) (performed : Nat) :
    Except ScrapeError (Option α) → Prop
  | page {outcome : α} (hresult : attempts.result performed = .ok outcome) :
      EndsWith budget minSize attempts performed (.ok (some outcome))
  | error {error : ScrapeError} (hresult : attempts.result performed = .error error)
      (hretryable : error.isRetryable = false) :
      EndsWith budget minSize attempts performed (.error error)
  | exhausted {error : ScrapeError} (hresult : attempts.result performed = .error error)
      (hretryable : error.isRetryable = true) :
      EndsWith budget minSize attempts performed (.error (.retryBudgetExhausted budget minSize error))

theorem Retrying.endsWith (hrunning : NoShutdown attempts)
    (hretrying : Retrying budget minSize attempts state) {outcome : Except ScrapeError (Option α)}
    (hreturns : Loop.Returns (retryTurn budget attempts) state outcome) :
    EndsWith budget minSize attempts state.performed outcome := by
  cases hresult : attempts.result state.performed with
  | ok page =>
      have hturn := @retryTurn_of_ok _ budget _ _ hrunning _ hresult
      cases hreturns with
      | error hbody =>
          rw [hturn] at hbody
          cases hbody
      | done hbody =>
          rw [hturn] at hbody
          cases hbody
          exact .page hresult
  | error error =>
      have hturn := @retryTurn_of_error _ budget _ _ hrunning _ hresult
      rw [afterRetryable_eq hrunning] at hturn
      have hleft := hretrying.left
      cases hreturns with
      | error hbody =>
          rw [hturn] at hbody
          split_ifs at hbody with hretryable hround hstays
          · cases hbody
            rw [PageSizeAdapter.eq_minSize hstays, hretrying.minSize,
              show state.attempts + 1 = budget by omega]
            exact .exhausted hresult hretryable
          · cases hbody
            exact .error hresult (Bool.eq_false_of_not_eq_true hretryable)
      | done hbody =>
          rw [hturn] at hbody
          split_ifs at hbody <;> cases hbody

/-! ### A whole call -/

def EndsInBounds (budget : Nat) (attempts : PageAttempts α) (adapter : PageSizeAdapter)
    (call : Nat → Option (RetryState × Except ScrapeError (Option α))) : Prop :=
  ∃ state outcome,
    call (budget * (halvings adapter.minSize adapter.currentSize + 1)) = some (state, outcome)
    ∧ EndsWith budget adapter.minSize attempts state.performed outcome
    ∧ ∀ index < state.performed,
      ∃ error, attempts.result index = .error error ∧ error.isRetryable = true

theorem pageWithRetry_ends {adapter : PageSizeAdapter} (hlegal : adapter.Legal)
    (hbudget : 1 ≤ budget) (hrunning : NoShutdown attempts) :
    EndsInBounds budget attempts adapter fun fuel => pageWithRetry budget attempts fuel adapter := by
  have hstart : Retrying budget adapter.minSize attempts ⟨adapter, 0, 0⟩ :=
    ⟨hlegal, rfl, hbudget, fun _ hindex => absurd hindex (Nat.not_lt_zero _)⟩
  have hfuel : attemptsLeft budget ⟨adapter, 0, 0⟩
      ≤ budget * (halvings adapter.minSize adapter.currentSize + 1) := by
    exact le_rfl
  have hpos : ∀ state, Retrying budget adapter.minSize attempts state →
      0 < attemptsLeft budget state := by
    intro state hretrying
    have hleft := hretrying.left
    rw [attemptsLeft]
    omega
  obtain ⟨state, outcome, hrun, hretrying, hreturns⟩ := Loop.run_of_measure hpos
    (fun state next hretrying hturn => hretrying.again hrunning hturn) hstart hfuel
  exact ⟨state, outcome, hrun, hretrying.endsWith hrunning hreturns, hretrying.failed⟩

end Retries

/-- **Retries are bounded, and page sizes stay legal.** -/
theorem scrapeRetries_bounded {adapter : PageSizeAdapter} (hbuilt : adapter.Built) :
    adapter.Legal ∧ ∀ budget, 1 ≤ budget →
      (∀ attempts, NoShutdown attempts → EndsInBounds budget attempts adapter
        fun fuel => syncNextPageWithRetry budget attempts fuel adapter)
      ∧ ∀ attempts, NoShutdown attempts → EndsInBounds budget attempts adapter
        fun fuel => syncBlockedShieldsPageWithRetry budget attempts fuel adapter := by
  refine ⟨hbuilt.legal, fun budget hbudget => ⟨fun attempts hrunning => ?_,
    fun attempts hrunning => ?_⟩⟩
  · exact pageWithRetry_ends hbuilt.legal hbudget hrunning
  · exact pageWithRetry_ends hbuilt.legal hbudget hrunning

/-! ### An upstream that never answers -/

section Silent

def silentAttempts : PageAttempts SyncPageOutcome where
  result _ := .error (.poiRpc .post)
  shutdownRequested _ := false
  shutdownInBackoff _ := false

theorem scrapeRetries_bounded_silent : (PageSizeAdapter.new 100 100 25).Legal
    ∧ EndsInBounds 3 silentAttempts (.new 100 100 25)
      fun fuel => syncNextPageWithRetry 3 silentAttempts fuel (.new 100 100 25) := by
  obtain ⟨hlegal, hends⟩ := scrapeRetries_bounded (.new 100 100 25)
  exact ⟨hlegal, (hends 3 (by decide)).1 silentAttempts ⟨fun _ => rfl, fun _ => rfl⟩⟩

example : (syncNextPageWithRetry 3 silentAttempts 9 (.new 100 100 25)).map Prod.snd
    = some (.error (.retryBudgetExhausted 3 25 (.poiRpc .post))) := by
  decide +kernel

end Silent

end RailgunIndexer
