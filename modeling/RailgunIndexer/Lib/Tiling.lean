import Mathlib.Algebra.GroupWithZero.Nat
import Mathlib.Data.List.Basic
import Mathlib.Tactic.Cases

/-!
# Consecutive intervals

Items that each hold an interval of indices tile a range when the first starts where the range does,
every other one starts right after the one before, and the last ends where the range does. Cutting a
list into parts and joining neighbouring parts keep a tiling.
-/

namespace Lib

variable {α β : Type}

/-- The items, each from `first` to `last` inclusive, tile the indices from `start` below `stop`. -/
inductive Tiles (first last : α → Nat) : Nat → Nat → List α → Prop
  | nil {start : Nat} : Tiles first last start start []
  | cons {start stop : Nat} {item : α} {items : List α} (hfirst : first item = start)
      (hle : start ≤ last item) (hrest : Tiles first last (last item + 1) stop items) :
      Tiles first last start stop (item :: items)

variable {first last : α → Nat} {start middle stop : Nat} {items later : List α}

theorem Tiles.le (htiles : Tiles first last start stop items) : start ≤ stop := by
  induction htiles with
  | nil => exact Nat.le_refl _
  | cons _ hle _ ih => omega

theorem Tiles.append (htiles : Tiles first last start middle items)
    (hlater : Tiles first last middle stop later) :
    Tiles first last start stop (items ++ later) := by
  induction htiles with
  | nil => exact hlater
  | cons hfirst hle _ ih => exact .cons hfirst hle (ih hlater)

theorem Tiles.exists_middle (htiles : Tiles first last start stop (items ++ later)) :
    ∃ middle, Tiles first last start middle items ∧ Tiles first last middle stop later := by
  induction items generalizing start with
  | nil => exact ⟨start, .nil, htiles⟩
  | cons item rest ih =>
      cases htiles with
      | cons hfirst hle hrest =>
          obtain ⟨middle, hitems, hlater⟩ := ih hrest
          exact ⟨middle, .cons hfirst hle hitems, hlater⟩

theorem Tiles.head_eq (htiles : Tiles first last start stop items) (hne : items ≠ []) :
    first (items.head hne) = start := by
  cases htiles with
  | nil => exact absurd rfl hne
  | cons hfirst _ _ => exact hfirst

theorem Tiles.getLast_eq (htiles : Tiles first last start stop items) (hne : items ≠ []) :
    start ≤ last (items.getLast hne) ∧ last (items.getLast hne) + 1 = stop := by
  induction htiles with
  | nil => exact absurd rfl hne
  | @cons start stop item rest hfirst hle hrest ih =>
      by_cases hrestNil : rest = []
      · subst hrestNil
        cases hrest
        exact ⟨hle, rfl⟩
      · obtain ⟨hlast, hstop⟩ := ih hrestNil
        rw [List.getLast_cons hrestNil]
        exact ⟨by omega, hstop⟩

theorem Tiles.join {starts ends : β → Nat} {parts : List (List α)} {joined : List β}
    (htiles : Tiles first last start stop parts.flatten)
    (hjoined : List.Forall₂ (fun part item => ∃ hne : part ≠ [], starts item = first (part.head hne)
      ∧ ends item = last (part.getLast hne)) parts joined) :
    Tiles starts ends start stop joined := by
  induction hjoined generalizing start with
  | nil =>
      cases htiles
      exact .nil
  | @cons part item parts joined hitem _ ih =>
      obtain ⟨hne, hstarts, hends⟩ := hitem
      obtain ⟨middle, hpart, hrest⟩ := htiles.exists_middle
      obtain ⟨hle, hmiddle⟩ := hpart.getLast_eq hne
      refine .cons (hstarts.trans (hpart.head_eq hne)) (hends ▸ hle) ?_
      rw [hends, hmiddle]
      exact ih hrest

theorem Tiles.of_forall₂ {starts ends : β → Nat} {others : List β}
    (htiles : Tiles first last start stop items)
    (hothers : List.Forall₂ (fun item other => starts other = first item ∧ ends other = last item)
      items others) : Tiles starts ends start stop others := by
  induction htiles generalizing others with
  | nil =>
      cases hothers
      exact .nil
  | cons hfirst hle _ ih =>
      cases hothers with
      | cons hitem hrest =>
          refine .cons (hitem.1.trans hfirst) (hitem.2 ▸ hle) ?_
          rw [hitem.2]
          exact ih hrest

theorem Tiles.part {parts : List (List α)} {part : List α}
    (htiles : Tiles first last start stop parts.flatten) (hpart : part ∈ parts) :
    ∃ before after a b, parts.flatten = before ++ (part ++ after)
      ∧ Tiles first last start a before ∧ Tiles first last a b part
      ∧ Tiles first last b stop after := by
  obtain ⟨left, right, rfl⟩ := List.append_of_mem hpart
  rw [List.flatten_append, List.flatten_cons] at htiles ⊢
  obtain ⟨a, hbefore, hrest⟩ := htiles.exists_middle
  obtain ⟨b, hpart, hafter⟩ := hrest.exists_middle
  exact ⟨_, _, a, b, rfl, hbefore, hpart, hafter⟩

theorem Tiles.sum_sizes {size : α → Nat} (htiles : Tiles first last start stop items)
    (hsize : ∀ item ∈ items, first item + size item = last item + 1) :
    start + (items.map size).sum = stop := by
  induction htiles with
  | nil => rfl
  | @cons start stop item items hfirst hle hrest ih =>
      have hhead := hsize item List.mem_cons_self
      have htail := ih fun other hother => hsize other (List.mem_cons_of_mem _ hother)
      rw [List.map_cons, List.sum_cons]
      omega

theorem Tiles.bounds (htiles : Tiles first last start stop items) {item : α} (hitem : item ∈ items) :
    start ≤ first item ∧ first item ≤ last item ∧ last item < stop := by
  induction htiles with
  | nil => cases hitem
  | cons hfirst hle hrest ih =>
      have hstop := hrest.le
      rcases List.mem_cons.mp hitem with rfl | hitem
      · omega
      · have hbounds := ih hitem
        omega

/-! ### Numbered items

Items that hold one index each are numbered consecutively. -/

section Points

variable {index : α → Nat} {a b count : Nat}

theorem Tiles.stop_eq (htiles : Tiles index index start stop items) : start + items.length = stop := by
  have hsum : start + (items.map fun _ => 1).sum = stop := htiles.sum_sizes fun _ _ => rfl
  rw [List.map_const', List.sum_replicate_nat, Nat.mul_one] at hsum
  exact hsum

theorem tiles_of_getElem? (hindex : ∀ (position : Nat) (item : α), items[position]? = some item →
    index item = start + position) : Tiles index index start (start + items.length) items := by
  induction items generalizing start with
  | nil => exact .nil
  | cons item items ih =>
      have hhead : index item = start := hindex 0 item rfl
      rw [List.length_cons, Nat.add_comm items.length 1, ← Nat.add_assoc]
      refine .cons hhead (by omega) ?_
      rw [hhead]
      apply ih
      intro position other hother
      rw [hindex (position + 1) other hother]
      omega

theorem tiles_mapIdx {number : Nat → β → α} {sources : List β}
    (hnumber : ∀ position source, index (number position source) = start + position) :
    Tiles index index start (start + sources.length) (sources.mapIdx number) := by
  have hlength : (sources.mapIdx number).length = sources.length := List.length_mapIdx
  rw [← hlength]
  apply tiles_of_getElem?
  intro position item hitem
  rw [List.getElem?_mapIdx] at hitem
  obtain ⟨source, -, rfl⟩ := Option.map_eq_some_iff.mp hitem
  exact hnumber position source

theorem Tiles.slice {skip count : Nat} (htiles : Tiles index index start stop items)
    (hbound : skip + count ≤ items.length) :
    Tiles index index (start + skip) (start + skip + count) ((items.drop skip).take count) := by
  rw [← List.take_append_drop skip items] at htiles
  obtain ⟨low, hskipped, hrest⟩ := htiles.exists_middle
  have hlow := hskipped.stop_eq
  rw [List.length_take_of_le (by omega)] at hlow
  rw [← List.take_append_drop count (items.drop skip)] at hrest
  obtain ⟨high, hslice, -⟩ := hrest.exists_middle
  have hhigh := hslice.stop_eq
  rw [List.length_take_of_le (by rw [List.length_drop]; omega)] at hhigh
  rw [hlow, hhigh]
  exact hslice

theorem Tiles.take_eq_filter (htiles : Tiles index index start stop items) (count : Nat) :
    items.take count = items.filter fun item => index item < start + count := by
  induction htiles generalizing count with
  | nil => simp
  | @cons start stop item items hfirst hle hrest ih =>
      cases count with
      | zero =>
          have hnone : (item :: items).filter (fun item => index item < start + 0) = [] := by
            rw [List.filter_eq_nil_iff]
            intro other hother hlt
            have hbound := ((Tiles.cons hfirst hle hrest).bounds hother).1
            simp only [decide_eq_true_eq] at hlt
            omega
          rw [hnone, List.take_zero]
      | succ count =>
          rw [List.take_succ_cons, List.filter_cons_of_pos (by simp; omega), ih count]
          congr 2
          funext other
          congr 1
          rw [eq_iff_iff]
          omega

theorem Tiles.page_eq_filter (htiles : Tiles index index start stop items) (hstart : start ≤ a) :
    (items.filter fun item => a ≤ index item).take count
      = items.filter fun item => a ≤ index item ∧ index item < a + count := by
  induction htiles with
  | nil => simp
  | @cons start stop item items hfirst hle hrest ih =>
      by_cases hlt : start < a
      · rw [List.filter_cons_of_neg (by simp; omega), List.filter_cons_of_neg (by simp; omega)]
        exact ih (by omega)
      · have htiles := Tiles.cons hfirst hle hrest
        have hall : (item :: items).filter (fun item => a ≤ index item) = item :: items := by
          rw [List.filter_eq_self]
          intro other hother
          have hbound := (htiles.bounds hother).1
          simp only [decide_eq_true_eq]
          omega
        rw [hall, htiles.take_eq_filter count]
        apply List.filter_congr
        intro other hother
        have hbound := (htiles.bounds hother).1
        congr 1
        rw [eq_iff_iff]
        omega

theorem Tiles.between (htiles : Tiles index index start stop items) (hstart : start ≤ a)
    (hab : a ≤ b) (hstop : b ≤ stop) :
    Tiles index index a b (items.filter fun item => a ≤ index item ∧ index item < b) := by
  induction htiles generalizing a with
  | nil =>
      obtain rfl : a = b := by omega
      exact .nil
  | @cons start stop item items hfirst hle hrest ih =>
      by_cases hlt : start < a
      · rw [List.filter_cons_of_neg (by simp; omega)]
        exact ih (by omega) hab hstop
      · obtain rfl : start = a := by omega
        by_cases hempty : start = b
        · subst hempty
          have hnone : (item :: items).filter (fun item => start ≤ index item ∧ index item < start)
              = [] := by
            rw [List.filter_eq_nil_iff]
            intro other _ hboth
            simp only [decide_eq_true_eq] at hboth
            omega
          rw [hnone]
          exact .nil
        · rw [List.filter_cons_of_pos (by simp; omega)]
          refine .cons hfirst hle ?_
          have hsame : items.filter (fun item => start ≤ index item ∧ index item < b)
              = items.filter fun other => index item + 1 ≤ index other ∧ index other < b := by
            apply List.filter_congr
            intro other hother
            have hbound := (hrest.bounds hother).1
            congr 1
            rw [eq_iff_iff]
            omega
          rw [hsame]
          exact ih (Nat.le_refl _) (by omega) hstop

theorem Tiles.part_eq_filter {parts : List (List α)} {part : List α}
    (htiles : Tiles index index start stop parts.flatten) (hpart : part ∈ parts) :
    ∃ a b, start ≤ a ∧ b ≤ stop ∧ Tiles index index a b part
      ∧ part = parts.flatten.filter fun item => a ≤ index item ∧ index item < b := by
  obtain ⟨before, after, a, b, hflatten, hbefore, hitems, hafter⟩ := htiles.part hpart
  refine ⟨a, b, hbefore.le, hafter.le, hitems, ?_⟩
  have hnotBefore : before.filter (fun item => a ≤ index item ∧ index item < b) = [] := by
    rw [List.filter_eq_nil_iff]
    intro item hitem hboth
    have hbound := (hbefore.bounds hitem).2.2
    simp only [decide_eq_true_eq] at hboth
    omega
  have hnotAfter : after.filter (fun item => a ≤ index item ∧ index item < b) = [] := by
    rw [List.filter_eq_nil_iff]
    intro item hitem hboth
    have hbound := (hafter.bounds hitem).1
    simp only [decide_eq_true_eq] at hboth
    omega
  have hall : part.filter (fun item => a ≤ index item ∧ index item < b) = part := by
    rw [List.filter_eq_self]
    intro item hitem
    have hbound := hitems.bounds hitem
    simp only [decide_eq_true_eq]
    omega
  rw [hflatten, List.filter_append, List.filter_append, hnotBefore, hnotAfter, hall,
    List.nil_append, List.append_nil]

end Points

/-! ### Keeping the end of a list -/

theorem filter_isSuffix {keep : α → Bool}
    (hkeep : items.Pairwise fun item other => keep item = true → keep other = true) :
    items.filter keep <:+ items := by
  induction items with
  | nil => exact List.suffix_rfl
  | cons item items ih =>
      obtain ⟨hitem, hitems⟩ := List.pairwise_cons.mp hkeep
      by_cases hkept : keep item = true
      · have hall : items.filter keep = items :=
          List.filter_eq_self.mpr fun other hother => hitem other hother hkept
        simp only [List.filter_cons_of_pos hkept, hall, List.suffix_rfl]
      · rw [List.filter_cons_of_neg hkept]
        exact (ih hitems).trans (List.suffix_cons item items)

theorem Tiles.suffix (htiles : Tiles first last start stop items) (hlater : later <:+ items) :
    ∃ middle, Tiles first last middle stop later := by
  obtain ⟨dropped, rfl⟩ := hlater
  obtain ⟨middle, -, hrest⟩ := htiles.exists_middle
  exact ⟨middle, hrest⟩

/-! ### Cutting a list -/

def chunksFrom (unit : Nat) : Nat → List α → List (List α)
  | 0, _ => []
  | fuel + 1, items =>
      if items.isEmpty then [] else items.take unit :: chunksFrom unit fuel (items.drop unit)

def chunksOf (unit : Nat) (items : List α) : List (List α) := chunksFrom unit items.length items

theorem chunksFrom_spec {unit fuel : Nat} {items : List α} (hunit : 0 < unit)
    (hfuel : items.length ≤ fuel) :
    (chunksFrom unit fuel items).flatten = items ∧ ∀ part ∈ chunksFrom unit fuel items, part ≠ [] := by
  induction fuel generalizing items with
  | zero =>
      obtain rfl := List.length_eq_zero_iff.mp (Nat.le_zero.mp hfuel)
      exact ⟨rfl, by simp [chunksFrom]⟩
  | succ fuel ih =>
      cases items with
      | nil => exact ⟨rfl, by simp [chunksFrom]⟩
      | cons item rest =>
          have hshorter : ((item :: rest).drop unit).length ≤ fuel := by
            rw [List.length_drop]
            omega
          obtain ⟨hflatten, hparts⟩ := ih hshorter
          rw [chunksFrom, if_neg (by simp)]
          constructor
          · rw [List.flatten_cons, hflatten, List.take_append_drop]
          · intro part hpart
            rcases List.mem_cons.mp hpart with rfl | hpart
            · intro hnil
              rw [List.take_eq_nil_iff] at hnil
              rcases hnil with hzero | hnil
              · omega
              · cases hnil
            · exact hparts part hpart

theorem flatten_chunksOf {unit : Nat} (hunit : 0 < unit) (items : List α) :
    (chunksOf unit items).flatten = items :=
  (chunksFrom_spec hunit (Nat.le_refl _)).1

theorem ne_nil_of_mem_chunksOf {unit : Nat} (hunit : 0 < unit) {items part : List α}
    (hpart : part ∈ chunksOf unit items) : part ≠ [] :=
  (chunksFrom_spec hunit (Nat.le_refl _)).2 part hpart

end Lib
