import Mathlib.Order.Lattice
import Mathlib.Data.List.Basic
import Mathlib.Data.Prod.Lex

/-!
# Finite maps kept in key order

A map is its list of entries, strictly increasing in the key. The order makes the representation
canonical, so two maps with the same lookups are equal, and iterating a map is reading the list.
A keyed table whose writes insert or merge a row is a fold of `upsert`, and what such a fold leaves
at one key depends only on the writes at that key.
-/

namespace Lib

/-- A finite map whose entries are strictly increasing in the key. -/
structure OrdMap (κ ν : Type) [LinearOrder κ] where
  entries : List (κ × ν)
  sorted : entries.Pairwise fun left right => left.1 < right.1

namespace OrdMap

variable {κ ν ω : Type} [LinearOrder κ] {μ : Type}

def lookup (key : κ) : List (κ × ν) → Option ν
  | [] => none
  | (other, value) :: rest => if other = key then some value else lookup key rest

def upsertEntries (key : κ) (write : Option ν → ν) : List (κ × ν) → List (κ × ν)
  | [] => [(key, write none)]
  | (other, value) :: rest =>
      if key < other then (key, write none) :: (other, value) :: rest
      else if key = other then (key, write (some value)) :: rest
      else (other, value) :: upsertEntries key write rest

variable {key : κ}

theorem lookup_eq_none_of_lt {entries : List (κ × ν)} (hbound : ∀ entry ∈ entries, key < entry.1) :
    lookup key entries = none := by
  induction entries with
  | nil => rfl
  | cons entry rest ih =>
      obtain ⟨other, value⟩ := entry
      have hne : other ≠ key := ne_of_gt (hbound (other, value) (by simp))
      rw [lookup, if_neg hne]
      exact ih fun entry hentry => hbound entry (by simp [hentry])

variable {value : ν}

theorem lookup_eq_some_of_mem {entries : List (κ × ν)}
    (hsorted : entries.Pairwise fun left right => left.1 < right.1)
    (hmem : (key, value) ∈ entries) : lookup key entries = some value := by
  induction entries with
  | nil => simp at hmem
  | cons entry rest ih =>
      obtain ⟨other, stored⟩ := entry
      rw [List.pairwise_cons] at hsorted
      rcases List.mem_cons.mp hmem with heq | hrest
      · cases heq
        simp [lookup]
      · have hne : other ≠ key := ne_of_lt (hsorted.1 (key, value) hrest)
        rw [lookup, if_neg hne]
        exact ih hsorted.2 hrest

theorem mem_of_lookup_eq_some {entries : List (κ × ν)} (hlookup : lookup key entries = some value) :
    (key, value) ∈ entries := by
  induction entries with
  | nil => simp [lookup] at hlookup
  | cons entry rest ih =>
      obtain ⟨other, stored⟩ := entry
      rw [lookup] at hlookup
      split_ifs at hlookup with heq
      · simp_all
      · exact List.mem_cons_of_mem _ (ih hlookup)

variable {write : Option ν → ν}

theorem mem_upsertEntries {entries : List (κ × ν)} {entry : κ × ν}
    (hmem : entry ∈ upsertEntries key write entries) :
    entry.1 = key ∨ entry ∈ entries := by
  induction entries with
  | nil =>
      simp only [upsertEntries, List.mem_singleton] at hmem
      exact Or.inl (hmem ▸ rfl)
  | cons head rest ih =>
      rw [upsertEntries] at hmem
      split_ifs at hmem with hlt heq
      · rcases List.mem_cons.mp hmem with hhead | hrest
        · exact Or.inl (hhead ▸ rfl)
        · exact Or.inr hrest
      · rcases List.mem_cons.mp hmem with hhead | hrest
        · exact Or.inl (hhead ▸ rfl)
        · exact Or.inr (List.mem_cons_of_mem _ hrest)
      · rcases List.mem_cons.mp hmem with hhead | hrest
        · exact Or.inr (hhead ▸ List.mem_cons_self)
        · rcases ih hrest with hkey | htail
          · exact Or.inl hkey
          · exact Or.inr (List.mem_cons_of_mem _ htail)

theorem sorted_upsertEntries (key : κ) (write : Option ν → ν) {entries : List (κ × ν)}
    (hsorted : entries.Pairwise fun left right => left.1 < right.1) :
    (upsertEntries key write entries).Pairwise fun left right => left.1 < right.1 := by
  induction entries with
  | nil => simp [upsertEntries]
  | cons head rest ih =>
      obtain ⟨other, value⟩ := head
      obtain ⟨hhead, hrest⟩ := List.pairwise_cons.mp hsorted
      rw [upsertEntries]
      split_ifs with hlt heq
      · refine List.pairwise_cons.mpr ⟨fun entry hentry => ?_, hsorted⟩
        rcases List.mem_cons.mp hentry with hfirst | htail
        · exact hfirst ▸ hlt
        · exact hlt.trans (hhead entry htail)
      · subst heq
        exact List.pairwise_cons.mpr ⟨hhead, hrest⟩
      · refine List.pairwise_cons.mpr ⟨fun entry hentry => ?_, ih hrest⟩
        rcases mem_upsertEntries hentry with hkey | htail
        · rw [hkey]
          exact lt_of_le_of_ne (not_lt.mp hlt) (Ne.symm heq)
        · exact hhead entry htail

theorem lookup_upsertEntries (key target : κ) (write : Option ν → ν) {entries : List (κ × ν)}
    (hsorted : entries.Pairwise fun left right => left.1 < right.1) :
    lookup target (upsertEntries key write entries)
      = if key = target then some (write (lookup key entries)) else lookup target entries := by
  induction entries with
  | nil => simp [upsertEntries, lookup]
  | cons head rest ih =>
      obtain ⟨other, value⟩ := head
      obtain ⟨hhead, hrest⟩ := List.pairwise_cons.mp hsorted
      rw [upsertEntries]
      by_cases hlt : key < other
      · have hnone : lookup key ((other, value) :: rest) = none := by
          apply lookup_eq_none_of_lt
          intro entry hentry
          rcases List.mem_cons.mp hentry with hfirst | htail
          · exact hfirst ▸ hlt
          · exact hlt.trans (hhead entry htail)
        rw [if_pos hlt, hnone, lookup]
      · rw [if_neg hlt]
        by_cases heq : key = other
        · subst heq
          by_cases htarget : key = target <;> simp [lookup, htarget]
        · rw [if_neg heq, lookup, ih hrest, lookup, lookup]
          by_cases htarget : key = target
          · subst htarget
            simp [Ne.symm heq]
          · simp [htarget]

/-! ### Operations -/

def get? (map : OrdMap κ ν) (key : κ) : Option ν := lookup key map.entries

def empty : OrdMap κ ν := ⟨[], List.Pairwise.nil⟩

def upsert (map : OrdMap κ ν) (key : κ) (write : Option ν → ν) : OrdMap κ ν :=
  ⟨upsertEntries key write map.entries, sorted_upsertEntries key write map.sorted⟩

def insert (map : OrdMap κ ν) (key : κ) (value : ν) : OrdMap κ ν :=
  map.upsert key fun _ => value

def filter (map : OrdMap κ ν) (keep : κ → ν → Bool) : OrdMap κ ν :=
  ⟨map.entries.filter fun entry => keep entry.1 entry.2, map.sorted.filter _⟩

theorem sorted_mapValues (map : OrdMap κ ν) (write : ν → μ) :
    (map.entries.map fun entry => (entry.1, write entry.2)).Pairwise
      fun left right => left.1 < right.1 :=
  List.pairwise_map.mpr map.sorted

def mapValues {μ : Type} (map : OrdMap κ ν) (write : ν → μ) : OrdMap κ μ :=
  ⟨map.entries.map fun entry => (entry.1, write entry.2), sorted_mapValues map write⟩

def values (map : OrdMap κ ν) : List ν := map.entries.map Prod.snd

def ofSorted (entries : List (κ × ν))
    (hsorted : entries.Pairwise fun left right => left.1 < right.1) : OrdMap κ ν :=
  ⟨entries, hsorted⟩

theorem ext_get? {left right : OrdMap κ ν} (hget : ∀ key, left.get? key = right.get? key) :
    left = right := by
  have hmem : ∀ entry, entry ∈ left.entries ↔ entry ∈ right.entries := by
    rintro ⟨key, value⟩
    constructor
    · intro hentry
      apply mem_of_lookup_eq_some
      exact (hget key).symm.trans (lookup_eq_some_of_mem left.sorted hentry)
    · intro hentry
      apply mem_of_lookup_eq_some
      exact (hget key).trans (lookup_eq_some_of_mem right.sorted hentry)
  have hnodup : ∀ map : OrdMap κ ν, map.entries.Nodup := fun map =>
    map.sorted.imp fun hlt heq => absurd (heq ▸ hlt) (lt_irrefl _)
  have hperm : left.entries.Perm right.entries :=
    (List.perm_ext_iff_of_nodup (hnodup left) (hnodup right)).mpr hmem
  have hentries : left.entries = right.entries :=
    List.Perm.eq_of_pairwise (fun a b _ _ hab hba => absurd (hab.trans hba) (lt_irrefl _))
      left.sorted right.sorted hperm
  cases left
  cases right
  congr

variable {map : OrdMap κ ν}

theorem get?_eq_some_iff : map.get? key = some value ↔ (key, value) ∈ map.entries :=
  ⟨mem_of_lookup_eq_some, lookup_eq_some_of_mem map.sorted⟩

@[simp]
theorem get?_empty (key : κ) : (empty : OrdMap κ ν).get? key = none := rfl

theorem get?_upsert (map : OrdMap κ ν) (key target : κ) (write : Option ν → ν) :
    (map.upsert key write).get? target
      = if key = target then some (write (map.get? key)) else map.get? target :=
  lookup_upsertEntries key target write map.sorted

theorem get?_insert (map : OrdMap κ ν) (key target : κ) (value : ν) :
    (map.insert key value).get? target
      = if key = target then some value else map.get? target :=
  get?_upsert map key target fun _ => value

theorem get?_filter (map : OrdMap κ ν) (keep : κ → ν → Bool) (key : κ) :
    (map.filter keep).get? key = (map.get? key).filter (keep key) := by
  cases hget : map.get? key with
  | none =>
      cases hkept : (map.filter keep).get? key with
      | none => rfl
      | some value =>
          have hmem := (List.mem_filter.mp (get?_eq_some_iff.mp hkept)).1
          rw [← get?_eq_some_iff, hget] at hmem
          cases hmem
  | some value =>
      have hmem := get?_eq_some_iff.mp hget
      cases hkeep : keep key value with
      | true =>
          rw [Option.filter_some_pos hkeep]
          exact get?_eq_some_iff.mpr (List.mem_filter.mpr ⟨hmem, hkeep⟩)
      | false =>
          rw [Option.filter_some_neg (by simp [hkeep])]
          cases hkept : (map.filter keep).get? key with
          | none => rfl
          | some other =>
              have hother := List.mem_filter.mp (get?_eq_some_iff.mp hkept)
              have heq : some value = some other :=
                hget.symm.trans (get?_eq_some_iff.mpr hother.1)
              cases heq
              simp [hkeep] at hother

theorem mem_values_iff : value ∈ map.values ↔ ∃ key, map.get? key = some value := by
  simp [values, get?_eq_some_iff]

theorem get?_mapValues (map : OrdMap κ ν) (write : ν → μ) (key : κ) :
    (map.mapValues write).get? key = (map.get? key).map write := by
  cases hget : map.get? key with
  | none =>
      cases hkept : (map.mapValues write).get? key with
      | none => rfl
      | some value =>
          obtain ⟨⟨found, old⟩, hmem, heq⟩ := List.mem_map.mp (get?_eq_some_iff.mp hkept)
          cases heq
          rw [← get?_eq_some_iff, hget] at hmem
          cases hmem
  | some value =>
      exact get?_eq_some_iff.mpr (List.mem_map.mpr ⟨(key, value), get?_eq_some_iff.mp hget, rfl⟩)

theorem values_mapValues (map : OrdMap κ ν) (write : ν → μ) :
    (map.mapValues write).values = map.values.map write := by
  simp only [values, mapValues, List.map_map]
  rfl

theorem le_of_find?_eq_some {keep : κ × ν → Bool} {found entry : κ × ν}
    (hfound : map.entries.find? keep = some found) (hentry : entry ∈ map.entries)
    (hkeep : keep entry = true) : found.1 ≤ entry.1 := by
  obtain ⟨-, front, back, hsplit, hfront⟩ := List.find?_eq_some_iff_append.mp hfound
  have hsorted := map.sorted
  rw [hsplit] at hsorted hentry
  rcases List.mem_append.mp hentry with hmem | hmem
  · have hnot := hfront entry hmem
    rw [hkeep] at hnot
    cases hnot
  · rcases List.mem_cons.mp hmem with rfl | hmem
    · exact le_rfl
    · exact (List.rel_of_pairwise_cons (List.pairwise_append.mp hsorted).2.1 hmem).le

theorem filter_keys_eq_range {map : OrdMap Nat ν} {bound : Nat} {keep : Nat × ν → Bool}
    (hkeep : ∀ entry, keep entry = true ↔ entry.1 < bound)
    (hall : ∀ key, key < bound → (map.get? key).isSome = true) :
    (map.entries.filter keep).map Prod.fst = List.range bound := by
  have hsorted : ((map.entries.filter keep).map Prod.fst).Pairwise (· < ·) :=
    List.pairwise_map.mpr (map.sorted.filter keep)
  refine List.Perm.eq_of_pairwise (fun a b _ _ hab hba => absurd (hab.trans hba) (lt_irrefl _))
    hsorted List.pairwise_lt_range ?_
  rw [List.perm_ext_iff_of_nodup (hsorted.imp fun hlt => ne_of_lt hlt) List.nodup_range]
  intro key
  rw [List.mem_map, List.mem_range]
  constructor
  · rintro ⟨entry, hentry, rfl⟩
    exact (hkeep entry).mp (List.mem_filter.mp hentry).2
  · intro hlt
    obtain ⟨value, hvalue⟩ := Option.isSome_iff_exists.mp (hall key hlt)
    exact ⟨(key, value), List.mem_filter.mpr ⟨get?_eq_some_iff.mp hvalue, (hkeep _).mpr hlt⟩, rfl⟩

/-! ### Properties of every entry -/

def Forall (P : κ → ν → Prop) (map : OrdMap κ ν) : Prop :=
  ∀ key value, map.get? key = some value → P key value

variable {P : κ → ν → Prop}

theorem forall_empty : Forall P (empty : OrdMap κ ν) :=
  fun _ _ hget => nomatch hget

theorem Forall.upsert (hmap : Forall P map) (hnone : P key (write none))
    (hsome : ∀ value, P key value → P key (write (some value))) :
    Forall P (map.upsert key write) := by
  intro target value hget
  rw [get?_upsert] at hget
  split at hget
  · rename_i hkey
    subst hkey
    cases hfound : map.get? key with
    | none =>
        rw [hfound] at hget
        exact Option.some.inj hget ▸ hnone
    | some found =>
        rw [hfound] at hget
        exact Option.some.inj hget ▸ hsome found (hmap key found hfound)
  · exact hmap target value hget

theorem Forall.insert (hmap : Forall P map) (hvalue : P key value) :
    Forall P (map.insert key value) :=
  hmap.upsert hvalue fun _ _ => hvalue

theorem nodup_values_of_forall {read : ν → κ}
    (hmap : Forall (fun key value => read value = key) map) : (map.values.map read).Nodup := by
  have hkeys : map.values.map read = map.entries.map Prod.fst := by
    rw [values, List.map_map]
    refine List.map_congr_left fun entry hentry => ?_
    exact hmap entry.1 entry.2 (get?_eq_some_iff.mpr hentry)
  rw [hkeys]
  exact List.pairwise_map.mpr (map.sorted.imp ne_of_lt)

/-! ### Folds of writes -/

def writeAll (key : ω → κ) (write : ω → Option ν → ν) (map : OrdMap κ ν) (writes : List ω) :
    OrdMap κ ν :=
  writes.foldl (fun current item => current.upsert (key item) (write item)) map

def mergeAll (write : ω → Option ν → ν) (start : Option ν) (writes : List ω) : Option ν :=
  writes.foldl (fun current item => some (write item current)) start

theorem writeAll_append (key : ω → κ) (write : ω → Option ν → ν) (map : OrdMap κ ν)
    (left right : List ω) :
    writeAll key write map (left ++ right) = writeAll key write (writeAll key write map left) right :=
  List.foldl_append

theorem get?_writeAll (key : ω → κ) (write : ω → Option ν → ν) (map : OrdMap κ ν)
    (writes : List ω) (target : κ) :
    (writeAll key write map writes).get? target
      = mergeAll write (map.get? target) (writes.filter fun item => key item = target) := by
  induction writes generalizing map with
  | nil => rfl
  | cons item rest ih =>
      change (writeAll key write (map.upsert (key item) (write item)) rest).get? target = _
      rw [ih, get?_upsert]
      by_cases hkey : key item = target
      · rw [if_pos hkey, List.filter_cons_of_pos (by simpa using hkey), hkey]
        rfl
      · rw [if_neg hkey, List.filter_cons_of_neg (by simpa using hkey)]

end OrdMap

end Lib
