import Mathlib.Data.Set.Basic
import Mathlib.Order.MinMax

/-!
# Agreement of observed values

Values are observed under keys, some observations being empty. A key agrees on a value when the value
was observed there and no other was. Adding observations a key already agrees on changes nothing: it
neither makes nor breaks agreement at any key, so a gap may be filled at any time.
-/

namespace Lib.Agreement

variable {κ τ : Type}

/-- The value was observed under the key, and no other value was. -/
def Agrees (seen : Set (κ × τ)) (key : κ) (value : τ) : Prop :=
  (key, value) ∈ seen ∧ ∀ other, (key, other) ∈ seen → other = value

theorem Agrees.unique {seen : Set (κ × τ)} {key : κ} {value other : τ}
    (hvalue : Agrees seen key value) (hother : Agrees seen key other) : value = other :=
  hother.2 value hvalue.1

theorem agrees_iff_of_filled {seen filled : Set (κ × τ)} (hold : seen ⊆ filled)
    (hnew : ∀ key value, (key, value) ∈ filled → (key, value) ∈ seen ∨ Agrees seen key value)
    (key : κ) (value : τ) : Agrees filled key value ↔ Agrees seen key value := by
  constructor
  · rintro ⟨hmem, honly⟩
    refine ⟨?_, fun other hother => honly other (hold hother)⟩
    rcases hnew key value hmem with hseen | hagrees
    · exact hseen
    · exact hagrees.1
  · rintro hagrees
    refine ⟨hold hagrees.1, fun other hother => ?_⟩
    rcases hnew key other hother with hseen | hother
    · exact hagrees.2 other hseen
    · exact hother.unique hagrees

/-! ### Agreement of a list of observations -/

section Observations

variable [DecidableEq κ] [LinearOrder τ]

def observed (rows : List (κ × Option τ)) : Set (κ × τ) :=
  {observation | (observation.1, some observation.2) ∈ rows}

def group (rows : List (κ × Option τ)) (key : κ) : List τ :=
  (rows.filter fun row => row.1 = key).filterMap Prod.snd

def agreed? (rows : List (κ × Option τ)) (key : κ) : Option τ :=
  if (group rows key).min? = (group rows key).max? then (group rows key).min? else none

omit [LinearOrder τ] in
theorem mem_group {rows : List (κ × Option τ)} {key : κ} {value : τ} :
    value ∈ group rows key ↔ (key, value) ∈ observed rows := by
  simp only [group, observed, List.mem_filterMap, List.mem_filter, decide_eq_true_eq,
    Set.mem_ofPred_eq]
  constructor
  · rintro ⟨⟨found, stamp⟩, ⟨hmem, rfl⟩, rfl⟩
    exact hmem
  · intro hmem
    exact ⟨(key, some value), ⟨hmem, rfl⟩, rfl⟩

theorem agreed?_eq_some_iff {rows : List (κ × Option τ)} {key : κ} {value : τ} :
    agreed? rows key = some value ↔ Agrees (observed rows) key value := by
  unfold agreed?
  constructor
  · intro hsome
    split_ifs at hsome with heq
    obtain ⟨hmem, hlow⟩ := List.min?_eq_some_iff.mp hsome
    obtain ⟨-, hhigh⟩ := List.max?_eq_some_iff.mp (heq.symm.trans hsome)
    refine ⟨mem_group.mp hmem, fun other hother => ?_⟩
    have hother := mem_group.mpr hother
    exact le_antisymm (hhigh other hother) (hlow other hother)
  · rintro ⟨hmem, honly⟩
    have hmem := mem_group.mpr hmem
    have hall : ∀ other ∈ group rows key, other = value := fun other hother =>
      honly other (mem_group.mp hother)
    have hmin : (group rows key).min? = some value :=
      List.min?_eq_some_iff.mpr ⟨hmem, fun other hother => (hall other hother).ge⟩
    have hmax : (group rows key).max? = some value :=
      List.max?_eq_some_iff.mpr ⟨hmem, fun other hother => (hall other hother).le⟩
    rw [hmin, hmax, if_pos rfl]

end Observations

end Lib.Agreement
