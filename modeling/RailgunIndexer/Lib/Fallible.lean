import Mathlib.Data.List.Forall2
import Mathlib.Tactic.Cases

/-!
# Computations that may fail

Inversion of a successful `Except` computation, and the loop rules for a fold that stops at its
first error: a predicate every step keeps holds at the end, and a quantity every step adds to is,
at the end, the sum of what the steps added.
-/

namespace Lib.Fallible

variable {ε α β σ ι : Type}
  {outcome : Except ε α} {items : List ι} {results : List α}

theorem bind_eq_ok {first : Except ε α} {next : α → Except ε β} {result : β} :
    (first >>= next) = .ok result ↔ ∃ value, first = .ok value ∧ next value = .ok result := by
  cases first <;> simp [Bind.bind, Except.bind]

@[simp]
theorem ok_bind (value : α) (next : α → Except ε β) : (Except.ok value >>= next) = next value := rfl

@[simp]
theorem error_bind (error : ε) (next : α → Except ε β) :
    (Except.error error >>= next) = .error error := rfl

@[simp]
theorem pure_eq_ok (value : α) : (pure value : Except ε α) = .ok value := rfl

theorem toOption_eq_some {value : α} :
    outcome.toOption = some value ↔ outcome = .ok value := by
  cases outcome <;> simp [Except.toOption]

theorem exists_eq_ok_of_isSome (hsome : outcome.toOption.isSome = true) :
    ∃ value, outcome = .ok value := by
  obtain ⟨value, hvalue⟩ := Option.isSome_iff_exists.mp hsome
  exact ⟨value, toOption_eq_some.mp hvalue⟩

theorem mapError_eq_ok {ε' : Type} {wrap : ε → ε'} {value : α} :
    outcome.mapError wrap = .ok value ↔ outcome = .ok value := by
  cases outcome <;> simp [Except.mapError]

theorem forM_eq_ok_iff {f : ι → Except ε Unit} :
    items.forM f = .ok () ↔ ∀ item ∈ items, f item = .ok () := by
  induction items with
  | nil => exact iff_of_true rfl fun _ hmem => nomatch hmem
  | cons item rest ih =>
      rw [List.forM_eq_forM, List.forM_cons, bind_eq_ok, List.forall_mem_cons, ← ih]
      constructor
      · rintro ⟨⟨⟩, hitem, hrest⟩
        exact ⟨hitem, hrest⟩
      · rintro ⟨hitem, hrest⟩
        exact ⟨(), hitem, hrest⟩

theorem mapM_eq_ok_iff {f : ι → Except ε α} :
    items.mapM f = .ok results
      ↔ List.Forall₂ (fun item result => f item = .ok result) items results := by
  induction items generalizing results with
  | nil =>
      simp only [List.mapM_nil, pure_eq_ok, Except.ok.injEq, List.forall₂_nil_left_iff]
      exact eq_comm
  | cons item rest ih =>
      simp only [List.mapM_cons, bind_eq_ok, pure_eq_ok, Except.ok.injEq,
        List.forall₂_cons_left_iff]
      constructor
      · rintro ⟨result, hitem, tail, hrest, rfl⟩
        exact ⟨result, tail, hitem, ih.mp hrest, rfl⟩
      · rintro ⟨result, tail, hitem, hrest, rfl⟩
        exact ⟨result, hitem, tail, ih.mpr hrest, rfl⟩

theorem mapM_eq_ok_iff_map {f : ι → Except ε α} {P : ι → Prop} {expected : ι → α}
    (hitem : ∀ item result, f item = .ok result ↔ P item ∧ result = expected item) {items : List ι}
    {results : List α} :
    items.mapM f = .ok results ↔ (∀ item ∈ items, P item) ∧ results = items.map expected := by
  rw [mapM_eq_ok_iff]
  simp only [hitem]
  induction items generalizing results with
  | nil => simp
  | cons item rest ih =>
      rw [List.forall₂_cons_left_iff, List.forall_mem_cons, List.map_cons]
      constructor
      · rintro ⟨_, results, ⟨hfirst, rfl⟩, hrest, rfl⟩
        obtain ⟨hall, rfl⟩ := ih.mp hrest
        exact ⟨⟨hfirst, hall⟩, rfl⟩
      · rintro ⟨⟨hfirst, hall⟩, rfl⟩
        exact ⟨_, _, ⟨hfirst, rfl⟩, ih.mpr ⟨hall, rfl⟩, rfl⟩

theorem exists_mapM_eq_ok {f : ι → Except ε α} :
    (∃ results, items.mapM f = .ok results) ↔ ∀ item ∈ items, ∃ result, f item = .ok result := by
  simp only [mapM_eq_ok_iff]
  constructor
  · rintro ⟨results, hresults⟩ item hitem
    induction hresults with
    | nil => cases hitem
    | cons hhead _ ih =>
        rcases List.mem_cons.mp hitem with rfl | hitem
        · exact ⟨_, hhead⟩
        · exact ih hitem
  · intro hall
    induction items with
    | nil => exact ⟨[], .nil⟩
    | cons item rest ih =>
        obtain ⟨result, hresult⟩ := hall item List.mem_cons_self
        obtain ⟨results, hresults⟩ := ih fun other hother => hall other (List.mem_cons_of_mem _ hother)
        exact ⟨result :: results, .cons hresult hresults⟩

theorem mapM_eq_error {f : ι → Except ε α} {error : ε}
    (hrun : items.mapM f = .error error) : ∃ item ∈ items, f item = .error error := by
  induction items with
  | nil => cases hrun
  | cons item rest ih =>
      rw [List.mapM_cons] at hrun
      cases hitem : f item with
      | error found =>
          rw [hitem, error_bind] at hrun
          cases hrun
          exact ⟨item, List.mem_cons_self, hitem⟩
      | ok value =>
          rw [hitem, ok_bind] at hrun
          cases hrest : rest.mapM f with
          | error found =>
              rw [hrest, error_bind] at hrun
              cases hrun
              obtain ⟨culprit, hmem, hculprit⟩ := ih hrest
              exact ⟨culprit, List.mem_cons_of_mem _ hmem, hculprit⟩
          | ok values =>
              rw [hrest, ok_bind] at hrun
              cases hrun

theorem exists_of_forall₂_left {R : ι → α → Prop}
    (hall : List.Forall₂ R items results) {item : ι} (hmem : item ∈ items) :
    ∃ result ∈ results, R item result := by
  induction hall with
  | nil => cases hmem
  | cons hfirst _ ih =>
      cases hmem with
      | head => exact ⟨_, List.mem_cons_self, hfirst⟩
      | tail _ hmem =>
          obtain ⟨result, hresult, hrelated⟩ := ih hmem
          exact ⟨result, List.mem_cons_of_mem _ hresult, hrelated⟩

theorem exists_of_forall₂_right {R : ι → α → Prop}
    (hall : List.Forall₂ R items results) {result : α} (hmem : result ∈ results) :
    ∃ item ∈ items, R item result :=
  exists_of_forall₂_left hall.flip hmem

theorem exists_mapM_forall {f : ι → Except ε α} {P : α → Prop}
    (hitem : ∀ item ∈ items, ∃ result, f item = .ok result ∧ P result) :
    ∃ results, items.mapM f = .ok results ∧ ∀ result ∈ results, P result := by
  obtain ⟨results, hrun⟩ := exists_mapM_eq_ok.mpr fun item hmem =>
    (hitem item hmem).imp fun _ hresult => hresult.1
  refine ⟨results, hrun, fun result hmem => ?_⟩
  obtain ⟨item, hmem, hresult⟩ := exists_of_forall₂_right (mapM_eq_ok_iff.mp hrun) hmem
  obtain ⟨found, hfound, hP⟩ := hitem item hmem
  rw [← Except.ok.inj (hfound.symm.trans hresult)]
  exact hP

theorem forall_mem_of_mapM {f : ι → Except ε α} {P : α → Prop} (hrun : items.mapM f = .ok results)
    (hitem : ∀ item result, f item = .ok result → P result) : ∀ result ∈ results, P result := by
  intro result hmem
  obtain ⟨item, -, hresult⟩ := exists_of_forall₂_right (mapM_eq_ok_iff.mp hrun) hmem
  exact hitem item result hresult

theorem forall₂_of_mapM {f : ι → Except ε α} {expected : ι → β}
    {R : α → β → Prop} (hrun : items.mapM f = .ok results)
    (hitem : ∀ item ∈ items, ∀ result, f item = .ok result → R result (expected item)) :
    List.Forall₂ R results (items.map expected) := by
  have hall := mapM_eq_ok_iff.mp hrun
  clear hrun
  induction hall with
  | nil => exact .nil
  | cons hfirst _ ih =>
      rw [List.forall_mem_cons] at hitem
      exact .cons (hitem.1 _ hfirst) (ih hitem.2)

theorem map_eq_of_mapM {f : ι → Except ε α} {read : α → β}
    {expected : ι → β} (hrun : items.mapM f = .ok results)
    (hitem : ∀ item result, f item = .ok result → read result = expected item) :
    results.map read = items.map expected := by
  have hall := mapM_eq_ok_iff.mp hrun
  clear hrun
  induction hall with
  | nil => rfl
  | cons hfirst _ ih => rw [List.map_cons, List.map_cons, hitem _ _ hfirst, ih]

section Folds

variable {step : σ → ι → Except ε σ} {Inv : σ → Prop}
  {items : List ι} {after : σ}

theorem foldlM_invariant {items : List ι} {state after : σ}
    (hrun : items.foldlM step state = .ok after) (hstate : Inv state)
    (hstep : ∀ state, ∀ item ∈ items, ∀ after, Inv state → step state item = .ok after →
      Inv after) : Inv after := by
  induction items generalizing state with
  | nil =>
      simp only [List.foldlM_nil, pure_eq_ok, Except.ok.injEq] at hrun
      exact hrun ▸ hstate
  | cons item rest ih =>
      obtain ⟨middle, hfirst, hrest⟩ := bind_eq_ok.mp hrun
      refine ih hrest (hstep state item List.mem_cons_self middle hstate hfirst) ?_
      exact fun state item hitem => hstep state item (List.mem_cons_of_mem _ hitem)

theorem exists_foldlM_eq_ok
    (hstep : ∀ state, ∀ item ∈ items, ∃ after, step state item = .ok after) (state : σ) :
    ∃ after, items.foldlM step state = .ok after := by
  induction items generalizing state with
  | nil => exact ⟨state, rfl⟩
  | cons item rest ih =>
      obtain ⟨middle, hmiddle⟩ := hstep state item List.mem_cons_self
      rw [List.foldlM_cons, hmiddle, ok_bind]
      exact ih (fun state item hitem => hstep state item (List.mem_cons_of_mem _ hitem)) middle

theorem exists_step_of_foldlM {state : σ}
    (hrun : items.foldlM step state = .ok after) {item : ι} (hitem : item ∈ items) :
    ∃ before next, step before item = .ok next := by
  induction items generalizing state with
  | nil => cases hitem
  | cons first rest ih =>
      obtain ⟨middle, hfirst, hrest⟩ := bind_eq_ok.mp hrun
      obtain rfl | hitem := List.mem_cons.mp hitem
      · exact ⟨state, middle, hfirst⟩
      · exact ih hrest hitem

theorem foldlM_forall₂ (holds : σ → List α) {R : ι → α → Prop} {state : σ}
    (hrun : items.foldlM step state = .ok after)
    (hstep : ∀ state, ∀ item ∈ items, ∀ after, step state item = .ok after →
      ∃ result, holds after = holds state ++ [result] ∧ R item result) :
    ∃ results, holds after = holds state ++ results ∧ List.Forall₂ R items results := by
  induction items generalizing state with
  | nil =>
      simp only [List.foldlM_nil, pure_eq_ok, Except.ok.injEq] at hrun
      exact ⟨[], by simp [hrun], .nil⟩
  | cons item rest ih =>
      obtain ⟨middle, hfirst, hrest⟩ := bind_eq_ok.mp hrun
      obtain ⟨result, hholds, hresult⟩ := hstep state item List.mem_cons_self middle hfirst
      obtain ⟨results, hafter, hresults⟩ := ih hrest fun state item hitem =>
        hstep state item (List.mem_cons_of_mem _ hitem)
      exact ⟨result :: results, by simp [hafter, hholds], .cons hresult hresults⟩

theorem foldlM_perm {holds : σ → List α} {adds : ι → List α} {state : σ}
    (hrun : items.foldlM step state = .ok after) (hstate : Inv state)
    (hinv : ∀ state item after, Inv state → step state item = .ok after → Inv after)
    (hstep : ∀ state item after, Inv state → step state item = .ok after →
      (holds after).Perm (holds state ++ adds item)) :
    (holds after).Perm (holds state ++ items.flatMap adds) := by
  induction items generalizing state with
  | nil =>
      simp only [List.foldlM_nil, pure_eq_ok, Except.ok.injEq] at hrun
      simp [hrun]
  | cons item rest ih =>
      obtain ⟨middle, hfirst, hrest⟩ := bind_eq_ok.mp hrun
      refine (ih hrest (hinv state item middle hstate hfirst)).trans ?_
      rw [List.flatMap_cons, ← List.append_assoc]
      exact (hstep state item middle hstate hfirst).append_right _

end Folds

end Lib.Fallible
