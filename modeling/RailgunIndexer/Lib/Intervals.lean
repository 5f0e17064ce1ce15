import Mathlib.Data.List.Forall2
import Mathlib.Order.Monotone.Basic
import Mathlib.Tactic.Cases
import Mathlib.Tactic.SplitIfs

/-!
# Intervals in order

Items that each hold an interval of indices are in order when each ends before the next one starts. There
may be gaps between them. Joining neighbours keeps the order and loses no index. A list sorted by an
index can be read back from intervals in order that hold all of its indices: what each interval holds,
one after the other, is the list.
-/

namespace Lib

variable {α β ρ : Type}

/-- The items, each from `first` to `last` inclusive, are apart and in order. -/
structure InOrder (first last : α → Nat) (items : List α) : Prop where
  proper : ∀ item ∈ items, first item ≤ last item
  apart : items.Pairwise fun left right => last left < first right

def Holds (first last : α → Nat) (items : List α) (index : Nat) : Prop :=
  ∃ item ∈ items, first item ≤ index ∧ index ≤ last item

def within (key : ρ → Nat) (rows : List ρ) (first last : Nat) : List ρ :=
  rows.filter fun row => first ≤ key row && key row ≤ last

theorem mem_within {key : ρ → Nat} {rows : List ρ} {first last : Nat} {row : ρ} :
    row ∈ within key rows first last ↔ row ∈ rows ∧ first ≤ key row ∧ key row ≤ last := by
  rw [within, List.mem_filter, Bool.and_eq_true, decide_eq_true_eq, decide_eq_true_eq]

section Order

variable {first last : α → Nat} {item : α} {items later : List α}

theorem inOrder_nil : InOrder first last [] :=
  ⟨fun _ hmem => absurd hmem List.not_mem_nil, List.Pairwise.nil⟩

theorem inOrder_cons :
    InOrder first last (item :: items)
      ↔ first item ≤ last item ∧ (∀ other ∈ items, last item < first other)
        ∧ InOrder first last items := by
  constructor
  · rintro ⟨hproper, hapart⟩
    rw [List.forall_mem_cons] at hproper
    rw [List.pairwise_cons] at hapart
    exact ⟨hproper.1, hapart.1, hproper.2, hapart.2⟩
  · rintro ⟨hitem, hbefore, hproper, hapart⟩
    exact ⟨List.forall_mem_cons.mpr ⟨hitem, hproper⟩, List.pairwise_cons.mpr ⟨hbefore, hapart⟩⟩

theorem inOrder_append :
    InOrder first last (items ++ later)
      ↔ InOrder first last items ∧ InOrder first last later
        ∧ ∀ item ∈ items, ∀ other ∈ later, last item < first other := by
  constructor
  · rintro ⟨hproper, hapart⟩
    rw [List.forall_mem_append] at hproper
    rw [List.pairwise_append] at hapart
    exact ⟨⟨hproper.1, hapart.1⟩, ⟨hproper.2, hapart.2.1⟩, hapart.2.2⟩
  · rintro ⟨hitems, hlater, hbetween⟩
    exact ⟨List.forall_mem_append.mpr ⟨hitems.proper, hlater.proper⟩,
      List.pairwise_append.mpr ⟨hitems.apart, hlater.apart, hbetween⟩⟩

theorem InOrder.ends (horder : InOrder first last items) (hne : items ≠ []) (hitem : item ∈ items) :
    first (items.head hne) ≤ first item ∧ last item ≤ last (items.getLast hne) := by
  induction items with
  | nil => exact absurd rfl hne
  | cons head rest ih =>
      obtain ⟨hhead, hbefore, hrest⟩ := inOrder_cons.mp horder
      by_cases hnil : rest = []
      · subst hnil
        obtain rfl := List.mem_singleton.mp hitem
        exact ⟨le_rfl, le_rfl⟩
      · rw [List.getLast_cons hnil, List.head_cons]
        rcases List.mem_cons.mp hitem with rfl | hitem
        · have hlast := List.getLast_mem hnil
          have hapart := hbefore _ hlast
          have hproper := hrest.proper _ hlast
          exact ⟨le_rfl, by omega⟩
        · have hapart := hbefore item hitem
          exact ⟨by omega, (ih hrest hnil hitem).2⟩

theorem inOrder_of_buckets {bucket : Nat → Nat} (hmono : Monotone bucket)
    (hproper : ∀ item ∈ items, first item ≤ last item)
    (hbucket : ∀ item ∈ items, bucket (last item) = bucket (first item))
    (hdistinct : items.Pairwise fun left right => bucket (first left) ≠ bucket (first right))
    (hsorted : items.Pairwise fun left right => first left ≤ first right) :
    InOrder first last items := by
  refine ⟨hproper, (hdistinct.and hsorted).imp_of_mem ?_⟩
  rintro left right hleft - ⟨hne, hle⟩
  by_contra hnot
  have hlow := hmono hle
  have hhigh := hmono (Nat.le_of_not_lt hnot)
  rw [hbucket left hleft] at hhigh
  exact hne (Nat.le_antisymm hlow hhigh)

/-- Each part becomes one item from its first to its last. -/
def Joins (first last : α → Nat) (starts ends : β → Nat) : List (List α) → List β → Prop :=
  List.Forall₂ fun part joined => ∃ hne : part ≠ [],
    starts joined = first (part.head hne) ∧ ends joined = last (part.getLast hne)

variable {starts ends : β → Nat} {parts : List (List α)} {joined : List β}

theorem joins_singletons (hsame : List.Forall₂ (fun item chunk =>
    starts chunk = first item ∧ ends chunk = last item) items joined) :
    Joins first last starts ends (items.map fun item => [item]) joined := by
  apply List.forall₂_map_left_iff.mpr
  apply hsame.imp
  rintro item chunk ⟨hstart, hend⟩
  exact ⟨List.cons_ne_nil _ _, hstart, hend⟩

theorem flatten_singletons (items : List α) : (items.map fun item => [item]).flatten = items := by
  exact List.flatMap_singleton' items

section

variable (hjoins : Joins first last starts ends parts joined)

include hjoins

theorem Joins.exists_ends {chunk : β}
    (hchunk : chunk ∈ joined) : (∃ item ∈ parts.flatten, starts chunk = first item)
      ∧ ∃ item ∈ parts.flatten, ends chunk = last item := by
  induction hjoins with
  | nil => cases hchunk
  | @cons part other parts joined hpart _ ih =>
      rcases List.mem_cons.mp hchunk with rfl | hchunk
      · obtain ⟨hne, hstart, hend⟩ := hpart
        exact ⟨⟨_, List.mem_append_left _ (List.head_mem hne), hstart⟩,
          ⟨_, List.mem_append_left _ (List.getLast_mem hne), hend⟩⟩
      · obtain ⟨⟨item, hitem, hstart⟩, other, hother, hend⟩ := ih hchunk
        exact ⟨⟨item, List.mem_append_right _ hitem, hstart⟩,
          ⟨other, List.mem_append_right _ hother, hend⟩⟩

theorem Joins.holds (horder : InOrder first last parts.flatten) {index : Nat}
    (hholds : Holds first last parts.flatten index) : Holds starts ends joined index := by
  induction hjoins with
  | nil =>
      obtain ⟨_, hmem, -⟩ := hholds
      cases hmem
  | @cons part other parts joined hpart _ ih =>
      obtain ⟨hfirst, hrest, -⟩ := inOrder_append.mp horder
      obtain ⟨item, hitem, hlow, hhigh⟩ := hholds
      rcases List.mem_append.mp hitem with hitem | hitem
      · obtain ⟨hne, hstart, hend⟩ := hpart
        have hbounds := hfirst.ends hne hitem
        exact ⟨other, List.mem_cons_self, by omega, by omega⟩
      · obtain ⟨chunk, hchunk, hbounds⟩ := ih hrest ⟨item, hitem, hlow, hhigh⟩
        exact ⟨chunk, List.mem_cons_of_mem _ hchunk, hbounds⟩

theorem Joins.inOrder (horder : InOrder first last parts.flatten) : InOrder starts ends joined := by
  induction hjoins with
  | nil => exact inOrder_nil
  | @cons part other parts joined hpart hrest ih =>
      obtain ⟨hfirst, hlater, hbetween⟩ := inOrder_append.mp horder
      obtain ⟨hne, hstart, hend⟩ := hpart
      refine inOrder_cons.mpr ⟨?_, ?_, ih hlater⟩
      · have hbounds := hfirst.ends hne (List.head_mem hne)
        have hproper := hfirst.proper _ (List.head_mem hne)
        omega
      · intro chunk hchunk
        obtain ⟨⟨item, hitem, heq⟩, -⟩ := Joins.exists_ends hrest hchunk
        rw [hend, heq]
        exact hbetween _ (List.getLast_mem hne) _ hitem

end

end Order

/-! ### Reading a sorted list back -/

section Sorted

variable {first last : α → Nat} {items : List α} {key : ρ → Nat} {rows : List ρ}

theorem eq_append_of_sorted (hsorted : rows.Pairwise fun left right => key left ≤ key right)
    (index : Nat) : rows = rows.filter (fun row => key row ≤ index)
      ++ rows.filter fun row => index < key row := by
  induction rows with
  | nil => rfl
  | cons row rest ih =>
      rw [List.pairwise_cons] at hsorted
      by_cases hle : key row ≤ index
      · rw [List.filter_cons_of_pos (by simpa using hle), List.filter_cons_of_neg (by simpa using hle),
          List.cons_append, ← ih hsorted.2]
      · have hnone : rest.filter (fun row => key row ≤ index) = [] := by
          rw [List.filter_eq_nil_iff]
          intro other hother
          have hbound := hsorted.1 other hother
          simp only [decide_eq_true_eq]
          omega
        have hall : rest.filter (fun row => index < key row) = rest := by
          rw [List.filter_eq_self]
          intro other hother
          have hbound := hsorted.1 other hother
          simp only [decide_eq_true_eq]
          omega
        rw [List.filter_cons_of_neg (by simpa using hle),
          List.filter_cons_of_pos (by simp; omega), hnone, hall, List.nil_append]

/-- **Intervals read a sorted list back.** -/
theorem InOrder.flatMap_within (horder : InOrder first last items)
    (hsorted : rows.Pairwise fun left right => key left ≤ key right)
    (hholds : ∀ row ∈ rows, Holds first last items (key row)) :
    items.flatMap (fun item => within key rows (first item) (last item)) = rows := by
  induction items generalizing rows with
  | nil =>
      cases rows with
      | nil => rfl
      | cons row rest =>
          obtain ⟨_, hmem, -⟩ := hholds row List.mem_cons_self
          cases hmem
  | cons item items ih =>
      obtain ⟨hproper, hbefore, hrest⟩ := inOrder_cons.mp horder
      have hhere : within key rows (first item) (last item)
          = rows.filter fun row => key row ≤ last item := by
        apply List.filter_congr
        intro row hrow
        obtain ⟨other, hother, hlow, -⟩ := hholds row hrow
        rw [Bool.and_eq_right_iff_imp, decide_eq_true_eq, decide_eq_true_eq]
        intro hle
        rcases List.mem_cons.mp hother with rfl | hother
        · exact hlow
        · have hapart := hbefore other hother
          omega
      have hlater : ∀ other ∈ items, within key rows (first other) (last other)
          = within key (rows.filter fun row => last item < key row) (first other) (last other) := by
        intro other hother
        have hapart := hbefore other hother
        rw [within, within, List.filter_filter]
        apply List.filter_congr
        intro row _
        rw [eq_comm, Bool.and_eq_left_iff_imp, Bool.and_eq_true, decide_eq_true_eq, decide_eq_true_eq,
          decide_eq_true_eq]
        omega
      have hread := ih hrest (hsorted.filter fun row => last item < key row) (by
        intro row hrow
        rw [List.mem_filter, decide_eq_true_eq] at hrow
        obtain ⟨other, hother, hlow, hhigh⟩ := hholds row hrow.1
        rcases List.mem_cons.mp hother with rfl | hother
        · omega
        · exact ⟨other, hother, hlow, hhigh⟩)
      rw [List.flatMap_cons, hhere, List.flatMap_congr hlater, hread]
      exact (eq_append_of_sorted hsorted (last item)).symm

end Sorted

/-! ### Points in order -/

section Points

variable {key : ρ → Nat} {rows before part after : List ρ} {a b low high : Nat}

theorem inOrder_points_iff :
    InOrder key key rows ↔ rows.Pairwise fun left right => key left < key right :=
  ⟨fun horder => horder.apart, fun hapart => ⟨fun _ _ => le_rfl, hapart⟩⟩

theorem within_within (hlow : low ≤ a) (hhigh : b ≤ high) :
    within key (within key rows low high) a b = within key rows a b := by
  rw [within, within, within, List.filter_filter]
  apply List.filter_congr
  intro row _
  rw [Bool.and_eq_left_iff_imp, Bool.and_eq_true, Bool.and_eq_true, decide_eq_true_eq,
    decide_eq_true_eq, decide_eq_true_eq, decide_eq_true_eq]
  omega

theorem InOrder.within (horder : InOrder key key rows) (a b : Nat) :
    InOrder key key (within key rows a b) :=
  inOrder_points_iff.mpr ((inOrder_points_iff.mp horder).filter _)

theorem InOrder.within_part (horder : InOrder key key (before ++ (part ++ after)))
    (hne : part ≠ []) :
    Lib.within key (before ++ (part ++ after)) (key (part.head hne)) (key (part.getLast hne))
      = part := by
  obtain ⟨-, hrest, hbefore⟩ := inOrder_append.mp horder
  obtain ⟨hpart, -, hafter⟩ := inOrder_append.mp hrest
  have hbeforeNil : Lib.within key before (key (part.head hne)) (key (part.getLast hne)) = [] := by
    rw [List.eq_nil_iff_forall_not_mem]
    intro row hrow
    rw [mem_within] at hrow
    have hlt := hbefore row hrow.1 _ (List.mem_append_left _ (List.head_mem hne))
    omega
  have hafterNil : Lib.within key after (key (part.head hne)) (key (part.getLast hne)) = [] := by
    rw [List.eq_nil_iff_forall_not_mem]
    intro row hrow
    rw [mem_within] at hrow
    have hlt := hafter _ (List.getLast_mem hne) row hrow.1
    omega
  have hall : Lib.within key part (key (part.head hne)) (key (part.getLast hne)) = part := by
    rw [Lib.within, List.filter_eq_self]
    intro row hrow
    have hbounds := hpart.ends hne hrow
    simpa using hbounds
  simp only [Lib.within, List.filter_append] at hbeforeNil hafterNil hall ⊢
  rw [hbeforeNil, hafterNil, hall, List.nil_append, List.append_nil]

theorem InOrder.within_ends (horder : InOrder key key rows) {first last : ρ} (hfirst : first ∈ rows)
    (hlast : last ∈ rows) (hle : key first ≤ key last) :
    ∃ hne : Lib.within key rows (key first) (key last) ≠ [],
      key ((Lib.within key rows (key first) (key last)).head hne) = key first
        ∧ key ((Lib.within key rows (key first) (key last)).getLast hne) = key last := by
  have hfirstMem : first ∈ Lib.within key rows (key first) (key last) :=
    mem_within.mpr ⟨hfirst, le_rfl, hle⟩
  have hlastMem : last ∈ Lib.within key rows (key first) (key last) :=
    mem_within.mpr ⟨hlast, hle, le_rfl⟩
  have hne := List.ne_nil_of_mem hfirstMem
  have hpoints := horder.within (key first) (key last)
  have hhead := (mem_within.mp (List.head_mem hne)).2
  have hend := (mem_within.mp (List.getLast_mem hne)).2
  have hlow := (hpoints.ends hne hfirstMem).1
  have hhigh := (hpoints.ends hne hlastMem).2
  exact ⟨hne, by omega, by omega⟩

end Points

end Lib
