import Mathlib.Tactic.Cases

/-!
# Loops that repeat until they return

The body of a loop reads the state and then goes round again with another state, returns a value, or
fails. `run` allows a number of turns; a loop that no number of turns ends runs forever.
-/

namespace Lib.Loop

variable {σ α ε : Type}

inductive Turn (σ α : Type) where
  | again (state : σ)
  | done (value : α)
  deriving DecidableEq

/-- Run the body for at most `fuel` turns. The state is kept when the body returns or fails. -/
def run (body : σ → Except ε (Turn σ α)) : Nat → σ → Option (σ × Except ε α)
  | 0, _ => none
  | fuel + 1, state =>
      match body state with
      | .error error => some (state, .error error)
      | .ok (.done value) => some (state, .ok value)
      | .ok (.again next) => run body fuel next

def Ends (body : σ → Except ε (Turn σ α)) (state after : σ) (outcome : Except ε α) : Prop :=
  ∃ fuel, run body fuel state = some (after, outcome)

variable {body : σ → Except ε (Turn σ α)} {state after : σ} {outcome : Except ε α}

inductive Returns (body : σ → Except ε (Turn σ α)) (state : σ) : Except ε α → Prop
  | error {error : ε} (hbody : body state = .error error) : Returns body state (.error error)
  | done {value : α} (hbody : body state = .ok (.done value)) : Returns body state (.ok value)

theorem Returns.run_eq (hreturns : Returns body state outcome) (fuel : Nat) :
    run body (fuel + 1) state = some (state, outcome) := by
  cases hreturns with
  | error hbody | done hbody => rw [run, hbody]

theorem Returns.ends_iff {result : Except ε α} (hreturns : Returns body state result) :
    Ends body state after outcome ↔ after = state ∧ outcome = result := by
  constructor
  · rintro ⟨fuel, hrun⟩
    cases fuel with
    | zero => cases hrun
    | succ fuel =>
        rw [hreturns.run_eq] at hrun
        cases hrun
        exact ⟨rfl, rfl⟩
  · rintro ⟨rfl, rfl⟩
    exact ⟨1, hreturns.run_eq 0⟩

theorem ends_of_again {next : σ} (hbody : body state = .ok (.again next)) :
    Ends body state after outcome ↔ Ends body next after outcome := by
  constructor
  · rintro ⟨fuel, hrun⟩
    cases fuel with
    | zero => cases hrun
    | succ fuel =>
        rw [run, hbody] at hrun
        exact ⟨fuel, hrun⟩
  · rintro ⟨fuel, hrun⟩
    exact ⟨fuel + 1, by rw [run, hbody]; exact hrun⟩

theorem run_of_measure {I : σ → Prop} {measure : σ → Nat} {fuel : Nat}
    (hpos : ∀ state, I state → 0 < measure state)
    (hagain : ∀ state next, I state → body state = .ok (.again next) →
      I next ∧ measure next < measure state)
    (hstate : I state) (hfuel : measure state ≤ fuel) :
    ∃ after outcome, run body fuel state = some (after, outcome) ∧ I after
      ∧ Returns body after outcome := by
  induction fuel generalizing state with
  | zero => exact absurd (hpos state hstate) (Nat.not_lt.mpr hfuel)
  | succ fuel ih =>
      cases hbody : body state with
      | error error => exact ⟨state, _, (Returns.error hbody).run_eq fuel, hstate, .error hbody⟩
      | ok turn =>
          cases turn with
          | done value => exact ⟨state, _, (Returns.done hbody).run_eq fuel, hstate, .done hbody⟩
          | again next =>
              obtain ⟨hnext, hlt⟩ := hagain state next hstate hbody
              obtain ⟨after, outcome, hrun, hafter⟩ :=
                ih hnext (Nat.le_of_lt_succ (Nat.lt_of_lt_of_le hlt hfuel))
              exact ⟨after, outcome, by rw [run, hbody]; exact hrun, hafter⟩

theorem run_eq_none_of_invariant {I : σ → Prop}
    (hstep : ∀ state, I state → ∃ next, body state = .ok (.again next) ∧ I next)
    (hstate : I state) (fuel : Nat) : run body fuel state = none := by
  induction fuel generalizing state with
  | zero => rfl
  | succ fuel ih =>
      obtain ⟨next, hbody, hnext⟩ := hstep state hstate
      rw [run, hbody]
      exact ih hnext

end Lib.Loop
