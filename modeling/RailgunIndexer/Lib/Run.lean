import Mathlib.Tactic.Cases

/-!
# Runs of a transition system

A step leads from a state to another and leaves an event behind. `Reaches` collects the events of the
steps taken from a first state, oldest first, so that a property of a run can speak of its past.
-/

namespace Lib.Run

variable {σ ε : Type}

/-- From `start` the events, in order, lead to the state. -/
inductive Reaches (step : σ → ε → σ → Prop) (start : σ) : List ε → σ → Prop
  | refl : Reaches step start [] start
  | tail {events : List ε} {state next : σ} {event : ε} (hrun : Reaches step start events state)
      (hstep : step state event next) : Reaches step start (events ++ [event]) next

variable {step other : σ → ε → σ → Prop} {start state next : σ} {events later : List ε}

theorem Reaches.invariant {I : List ε → σ → Prop} (hrun : Reaches step start events state)
    (hinit : I [] start)
    (hstep : ∀ events state event next, I events state → step state event next →
      I (events ++ [event]) next) : I events state := by
  induction hrun with
  | refl => exact hinit
  | tail _ hlast ih => exact hstep _ _ _ _ ih hlast

theorem Reaches.single {event : ε} (hstep : step state event next) :
    Reaches step state [event] next :=
  Reaches.tail .refl hstep

theorem Reaches.trans (hrun : Reaches step start events state)
    (hlater : Reaches step state later next) : Reaches step start (events ++ later) next := by
  induction hlater with
  | refl => rwa [List.append_nil]
  | tail _ hlast ih =>
      rw [← List.append_assoc]
      exact ih.tail hlast

theorem Reaches.mono (hrun : Reaches step start events state)
    (himp : ∀ event ∈ events, ∀ state next, step state event next → other state event next) :
    Reaches other start events state := by
  induction hrun with
  | refl => exact .refl
  | tail _ hlast ih =>
      refine (ih fun event hevent => himp event (List.mem_append_left _ hevent)).tail ?_
      exact himp _ (List.mem_append_right _ List.mem_cons_self) _ _ hlast

end Lib.Run
