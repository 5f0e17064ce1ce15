import RailgunIndexer.Lib.OrdMap
import Mathlib.Data.List.Pairwise

/-!
# Replaying blocks into a keyed table

A table holds one row per key. Rows arrive block by block and a row that meets an older row at its
key is merged into it by an associative and idempotent operation: keeping the newer row is one, and
so are minima and maxima. When every key belongs to one block, the table after a history depends
neither on how the history is cut into batches nor on how often a batch is repeated; and dropping the
rows from some block on and replaying another history from there gives the table of that history.
-/

namespace Lib.Replay

variable {κ ν β : Type} [LinearOrder κ]

/-! ### Rows at one key -/

def mergeRow (op : ν → ν → ν) (entry : κ × ν) : Option ν → ν
  | none => entry.2
  | some found => op found entry.2

def mergeEntries (op : ν → ν → ν) (table : OrdMap κ ν) (entries : List (κ × ν)) : OrdMap κ ν :=
  table.writeAll Prod.fst (mergeRow op) entries

def rowsAt (key : κ) (entries : List (κ × ν)) : List ν :=
  (entries.filter fun entry => entry.1 = key).map Prod.snd

def combine (op : ν → ν → ν) (found : Option ν) (rows : List ν) : Option ν :=
  rows.foldl (fun found row => some (found.elim row fun old => op old row)) found

theorem mergeEntries_append (op : ν → ν → ν) (table : OrdMap κ ν) (left right : List (κ × ν)) :
    mergeEntries op table (left ++ right) = mergeEntries op (mergeEntries op table left) right :=
  OrdMap.writeAll_append _ _ _ _ _

@[simp]
theorem rowsAt_append (key : κ) (left right : List (κ × ν)) :
    rowsAt key (left ++ right) = rowsAt key left ++ rowsAt key right := by
  simp [rowsAt]

theorem rowsAt_flatMap {α : Type} (key : κ) (items : List α) (f : α → List (κ × ν)) :
    rowsAt key (items.flatMap f) = items.flatMap fun item => rowsAt key (f item) := by
  induction items with
  | nil => rfl
  | cons item rest ih => rw [List.flatMap_cons, rowsAt_append, ih, List.flatMap_cons]

theorem rowsAt_eq_nil {key : κ} {entries : List (κ × ν)} :
    rowsAt key entries = [] ↔ ∀ entry ∈ entries, entry.1 ≠ key := by
  simp [rowsAt]

theorem mem_rowsAt {key : κ} {entries : List (κ × ν)} {row : ν} :
    row ∈ rowsAt key entries ↔ (key, row) ∈ entries := by
  simp only [rowsAt, List.mem_map, List.mem_filter, decide_eq_true_eq]
  constructor
  · rintro ⟨⟨found, row⟩, ⟨hmem, rfl⟩, rfl⟩
    exact hmem
  · intro hmem
    exact ⟨(key, row), ⟨hmem, rfl⟩, rfl⟩

theorem get?_mergeEntries (op : ν → ν → ν) (table : OrdMap κ ν) (entries : List (κ × ν)) (key : κ) :
    (mergeEntries op table entries).get? key
      = combine op (table.get? key) (rowsAt key entries) := by
  rw [mergeEntries, OrdMap.get?_writeAll, OrdMap.mergeAll, combine, rowsAt, List.foldl_map]
  congr 1
  funext found entry
  cases found <;> rfl

theorem forall_mergeEntries {op : ν → ν → ν} {P : κ → ν → Prop}
    (hop : ∀ key left right, P key left → P key right → P key (op left right))
    {table : OrdMap κ ν} (htable : table.Forall P) {entries : List (κ × ν)}
    (hentries : ∀ entry ∈ entries, P entry.1 entry.2) :
    (mergeEntries op table entries).Forall P :=
  List.foldlRecOn entries _ htable fun _ hfound entry hentry =>
    hfound.upsert (hentries entry hentry) fun row hrow =>
      hop entry.1 row entry.2 hrow (hentries entry hentry)

/-! ### Merging again changes nothing -/

section Band

variable {op : ν → ν → ν}

theorem combine_append (found : Option ν) (left right : List ν) :
    combine op found (left ++ right) = combine op (combine op found left) right :=
  List.foldl_append

theorem combine_some (found : ν) (rows : List ν) :
    combine op (some found) rows = some (rows.foldl op found) := by
  induction rows generalizing found with
  | nil => rfl
  | cons row rest ih => exact ih (op found row)

theorem combine_cons (row : ν) (rows : List ν) :
    combine op none (row :: rows) = some (rows.foldl op row) :=
  combine_some row rows

theorem forall_combine {P : ν → Prop} (hop : ∀ left right, P left → P right → P (op left right))
    {rows : List ν} (hrows : ∀ row ∈ rows, P row) {merged : ν}
    (hmerged : combine op none rows = some merged) : P merged := by
  cases rows with
  | nil => cases hmerged
  | cons row rest =>
      rw [combine_cons, Option.some.injEq] at hmerged
      rw [List.forall_mem_cons] at hrows
      subst hmerged
      exact List.foldlRecOn rest op hrows.1 fun left hleft right hright =>
        hop left right hleft (hrows.2 right hright)

variable [Std.Associative op] [Std.IdempotentOp op]

theorem combine_again (rows : List ν) :
    combine op (combine op none rows) rows = combine op none rows := by
  cases rows with
  | nil => rfl
  | cons row rest =>
      rw [combine_cons, combine_some, List.foldl_cons, List.foldl_assoc,
        @Std.IdempotentOp.idempotent _ op _]

theorem combine_replicate (rows : List ν) (repeats : Nat) :
    combine op none (List.replicate (repeats + 1) rows).flatten = combine op none rows := by
  induction repeats with
  | zero => simp
  | succ repeats ih =>
      rw [List.replicate_succ', List.flatten_append, combine_append, ih]
      simpa using combine_again rows

end Band

/-! ### Blocks -/

section Blocks

variable {passes : List (β → List (κ × ν))}

/-- The rows of some blocks, in the order of the passes a batch makes over them. -/
def entries (passes : List (β → List (κ × ν))) (blocks : List β) : List (κ × ν) :=
  passes.flatMap fun pass => blocks.flatMap pass

def Lacks (passes : List (β → List (κ × ν))) (key : κ) (block : β) : Prop :=
  ∀ pass ∈ passes, rowsAt key (pass block) = []

def Apart (passes : List (β → List (κ × ν))) (left right : β) : Prop :=
  ∀ key, Lacks passes key left ∨ Lacks passes key right

theorem rowsAt_entries (key : κ) (blocks : List β) :
    rowsAt key (entries passes blocks)
      = passes.flatMap fun pass => blocks.flatMap fun block => rowsAt key (pass block) := by
  simp only [entries, rowsAt_flatMap]

theorem rowsAt_entries_eq_nil {key : κ} {blocks : List β} :
    rowsAt key (entries passes blocks) = [] ↔ ∀ block ∈ blocks, Lacks passes key block := by
  rw [rowsAt_entries]
  simp only [List.flatMap_eq_nil_iff, Lacks]
  exact ⟨fun hnone block hblock pass hpass => hnone pass hpass block hblock,
    fun hnone pass hpass block hblock => hnone block hblock pass hpass⟩

theorem flatMap_filter_of_nil {α : Type} {blocks : List β} {keep : β → Bool} {f : β → List α}
    (hnone : ∀ block ∈ blocks, keep block = false → f block = []) :
    (blocks.filter keep).flatMap f = blocks.flatMap f := by
  induction blocks with
  | nil => rfl
  | cons block rest ih =>
      rw [List.forall_mem_cons] at hnone
      rw [List.flatMap_cons, ← ih hnone.2]
      cases hkeep : keep block with
      | true => rw [List.filter_cons_of_pos hkeep, List.flatMap_cons]
      | false => rw [List.filter_cons_of_neg (by simp [hkeep]), hnone.1 hkeep, List.nil_append]

theorem rowsAt_entries_filter {key : κ} {blocks : List β} {keep : β → Bool}
    (hlacks : ∀ block ∈ blocks, keep block = false → Lacks passes key block) :
    rowsAt key (entries passes (blocks.filter keep)) = rowsAt key (entries passes blocks) := by
  rw [rowsAt_entries, rowsAt_entries]
  refine List.flatMap_congr fun pass hpass => flatMap_filter_of_nil fun block hblock hkeep => ?_
  exact hlacks block hblock hkeep pass hpass

theorem flatMap_rowsAt_of_lacks {key : κ} {blocks : List β}
    (hlacks : ∀ block ∈ blocks, Lacks passes key block) {pass : β → List (κ × ν)}
    (hpass : pass ∈ passes) : (blocks.flatMap fun block => rowsAt key (pass block)) = [] :=
  List.flatMap_eq_nil_iff.mpr fun block hblock => hlacks block hblock pass hpass

theorem rowsAt_entries_append_of_lacks_right {key : κ} {left right : List β}
    (hlacks : ∀ block ∈ right, Lacks passes key block) :
    rowsAt key (entries passes (left ++ right)) = rowsAt key (entries passes left) := by
  rw [rowsAt_entries, rowsAt_entries]
  refine List.flatMap_congr fun pass hpass => ?_
  rw [List.flatMap_append, flatMap_rowsAt_of_lacks hlacks hpass, List.append_nil]

theorem rowsAt_entries_append_of_lacks_left {key : κ} {left right : List β}
    (hlacks : ∀ block ∈ left, Lacks passes key block) :
    rowsAt key (entries passes (left ++ right)) = rowsAt key (entries passes right) := by
  rw [rowsAt_entries, rowsAt_entries]
  refine List.flatMap_congr fun pass hpass => ?_
  rw [List.flatMap_append, flatMap_rowsAt_of_lacks hlacks hpass, List.nil_append]

theorem apart_of_keys_ne {left right : β}
    (hkeys : ∀ pass ∈ passes, ∀ entry ∈ pass left, ∀ other ∈ passes, ∀ found ∈ other right,
      entry.1 ≠ found.1) : Apart passes left right := by
  intro key
  by_cases hleft : Lacks passes key left
  · exact .inl hleft
  · refine .inr fun other hother => rowsAt_eq_nil.mpr fun found hfound hkey => hleft ?_
    exact fun pass hpass => rowsAt_eq_nil.mpr fun entry hentry heq =>
      hkeys pass hpass entry hentry other hother found hfound (heq.trans hkey.symm)

instance : Std.Symm (Apart passes) :=
  ⟨fun _ _ hapart key => (hapart key).symm⟩

/-! ### Batches -/

/-- The batches in the order they are persisted, each one more time than its count. -/
def persisted (batches : List (List β × Nat)) : List (List β) :=
  batches.flatMap fun batch => List.replicate (batch.2 + 1) batch.1

def persistedEntries (passes : List (β → List (κ × ν))) (batches : List (List β × Nat)) :
    List (κ × ν) :=
  (persisted batches).flatMap (entries passes)

theorem mem_of_mem_persisted {batches : List (List β × Nat)} {blocks : List β}
    (hmem : blocks ∈ persisted batches) : ∃ batch ∈ batches, batch.1 = blocks := by
  obtain ⟨batch, hbatch, hblocks⟩ := List.mem_flatMap.mp hmem
  exact ⟨batch, hbatch, (List.eq_of_mem_replicate hblocks).symm⟩

theorem rowsAt_persistedEntries_eq_nil {key : κ} {batches : List (List β × Nat)}
    (hlacks : ∀ block ∈ batches.flatMap Prod.fst, Lacks passes key block) :
    rowsAt key (persistedEntries passes batches) = [] := by
  rw [persistedEntries, rowsAt_flatMap, List.flatMap_eq_nil_iff]
  intro blocks hblocks
  obtain ⟨batch, hbatch, rfl⟩ := mem_of_mem_persisted hblocks
  rw [rowsAt_entries_eq_nil]
  exact fun block hblock => hlacks block (List.mem_flatMap.mpr ⟨batch, hbatch, hblock⟩)

theorem rowsAt_persistedEntries_cons (key : κ) (batch : List β × Nat)
    (batches : List (List β × Nat)) :
    rowsAt key (persistedEntries passes (batch :: batches))
      = (List.replicate (batch.2 + 1) (rowsAt key (entries passes batch.1))).flatten
        ++ rowsAt key (persistedEntries passes batches) := by
  rw [persistedEntries, persisted, List.flatMap_cons, List.flatMap_append, rowsAt_append,
    rowsAt_flatMap, List.flatMap_def, List.map_replicate]
  rfl

variable {op : ν → ν → ν}

theorem combine_persistedEntries [Std.Associative op] [Std.IdempotentOp op] (key : κ)
    {batches : List (List β × Nat)}
    (hapart : (batches.flatMap Prod.fst).Pairwise (Apart passes)) :
    combine op none (rowsAt key (persistedEntries passes batches))
      = combine op none (rowsAt key (entries passes (batches.flatMap Prod.fst))) := by
  induction batches with
  | nil => rw [List.flatMap_nil, rowsAt_entries_eq_nil.mpr (by simp)]; rfl
  | cons batch batches ih =>
      rw [List.flatMap_cons] at hapart ⊢
      obtain ⟨-, hrest, hcross⟩ := List.pairwise_append.mp hapart
      rw [rowsAt_persistedEntries_cons]
      by_cases hfirst : rowsAt key (entries passes batch.1) = []
      · have hlacks := rowsAt_entries_eq_nil.mp hfirst
        rw [rowsAt_entries_append_of_lacks_left hlacks, ← ih hrest, hfirst]
        simp
      · have hlacks : ∀ block ∈ batches.flatMap Prod.fst, Lacks passes key block := by
          rw [rowsAt_entries_eq_nil] at hfirst
          simp only [not_forall] at hfirst
          obtain ⟨owner, howner, hhas⟩ := hfirst
          exact fun block hblock => (hcross owner howner block hblock key).resolve_left hhas
        rw [rowsAt_persistedEntries_eq_nil hlacks, List.append_nil, combine_replicate,
          rowsAt_entries_append_of_lacks_right hlacks]

/-! ### Rewinding and replaying -/

section Rewind

variable {number : β → Nat} {rowBlock : ν → Nat} {blocks first second : List β} {start : Nat} {key : κ}

/-- A merged row names the block of one of the two rows. -/
def KeepsBlock (rowBlock : ν → Nat) (op : ν → ν → ν) : Prop :=
  ∀ left right, rowBlock (op left right) = rowBlock left ∨ rowBlock (op left right) = rowBlock right

def OwnedBy (passes : List (β → List (κ × ν))) (rowBlock : ν → Nat) (number : β → Nat)
    (blocks : List β) : Prop :=
  ∀ block ∈ blocks, ∀ pass ∈ passes, ∀ entry ∈ pass block, rowBlock entry.2 = number block

def LacksBelow (passes : List (β → List (κ × ν))) (number : β → Nat) (start : Nat) (key : κ)
    (blocks : List β) : Prop :=
  ∀ block ∈ blocks.filter (fun block => number block < start), Lacks passes key block

theorem OwnedBy.combine_block (howned : OwnedBy passes rowBlock number blocks)
    (hop : KeepsBlock rowBlock op) {keep : β → Bool} {merged : ν}
    (hmerged : combine op none (rowsAt key (entries passes (blocks.filter keep))) = some merged) :
    ∃ block, keep block = true ∧ rowBlock merged = number block := by
  refine forall_combine (P := fun row => ∃ block, keep block = true ∧ rowBlock row = number block)
    ?_ ?_ hmerged
  · intro left right hleft hright
    obtain heq | heq := hop left right <;> rwa [heq]
  · intro row hrow
    rw [mem_rowsAt] at hrow
    obtain ⟨pass, hpass, hrow⟩ := List.mem_flatMap.mp hrow
    obtain ⟨block, hblock, hrow⟩ := List.mem_flatMap.mp hrow
    obtain ⟨hblock, hkeep⟩ := List.mem_filter.mp hblock
    exact ⟨block, hkeep, howned block hblock pass hpass _ hrow⟩

theorem lacks_from_of_has_below (hapart : blocks.Pairwise (Apart passes))
    (hhas : ¬ LacksBelow passes number start key blocks) :
    ∀ block ∈ blocks, ¬ number block < start → Lacks passes key block := by
  simp only [LacksBelow, not_forall] at hhas
  obtain ⟨owner, howner, hhas⟩ := hhas
  obtain ⟨howner, hbelow⟩ := List.mem_filter.mp howner
  intro block hblock hfrom
  have hne : owner ≠ block := by
    rintro rfl
    exact hfrom (by simpa using hbelow)
  exact (hapart.forall howner hblock hne key).resolve_left hhas

theorem rowsAt_entries_of_lacks_below (hbelow : LacksBelow passes number start key blocks) :
    rowsAt key (entries passes (blocks.filter fun block => start ≤ number block))
      = rowsAt key (entries passes blocks) := by
  refine rowsAt_entries_filter fun block hblock hlow => hbelow block ?_
  exact List.mem_filter.mpr ⟨hblock, by simpa using hlow⟩

theorem rowsAt_entries_of_has_below (hapart : blocks.Pairwise (Apart passes))
    (hhas : ¬ LacksBelow passes number start key blocks) :
    rowsAt key (entries passes (blocks.filter fun block => number block < start))
      = rowsAt key (entries passes blocks) := by
  refine rowsAt_entries_filter fun block hblock hfrom => ?_
  exact lacks_from_of_has_below hapart hhas block hblock (by simpa using hfrom)

theorem filter_combine_of_lacks_below (hop : KeepsBlock rowBlock op)
    (howned : OwnedBy passes rowBlock number blocks)
    (hbelow : LacksBelow passes number start key blocks) :
    (combine op none (rowsAt key (entries passes blocks))).filter
      (fun row => decide (rowBlock row < start)) = none := by
  rw [← rowsAt_entries_of_lacks_below hbelow]
  refine Option.filter_eq_none_iff.mpr fun merged hmerged => ?_
  obtain ⟨block, hstart, heq⟩ := howned.combine_block hop hmerged
  simpa [heq] using hstart

theorem filter_combine_of_has_below (hop : KeepsBlock rowBlock op)
    (howned : OwnedBy passes rowBlock number blocks) (hapart : blocks.Pairwise (Apart passes))
    (hhas : ¬ LacksBelow passes number start key blocks) :
    (combine op none (rowsAt key (entries passes blocks))).filter
        (fun row => decide (rowBlock row < start))
      = combine op none (rowsAt key (entries passes blocks)) := by
  rw [← rowsAt_entries_of_has_below hapart hhas]
  cases hmerged : combine op none (rowsAt key (entries passes (blocks.filter _))) with
  | none => rfl
  | some merged =>
      obtain ⟨block, hbelow, heq⟩ := howned.combine_block hop hmerged
      exact Option.filter_some_pos (by rwa [heq])

variable [Std.Associative op] [Std.IdempotentOp op]

/-- **Rewind plus replay is the new history.** Two histories that agree below the start: persist the
first, drop its rows from the start on, persist the second from the start on. -/
theorem rewind_replay (hop : KeepsBlock rowBlock op) (howned : OwnedBy passes rowBlock number first)
    (hfirst : first.Pairwise (Apart passes)) (hsecond : second.Pairwise (Apart passes))
    (hagree : first.filter (fun block => number block < start)
      = second.filter fun block => number block < start)
    {stored replayed scratch : List (List β × Nat)} (hstored : stored.flatMap Prod.fst = first)
    (hreplayed : replayed.flatMap Prod.fst = second.filter fun block => start ≤ number block)
    (hscratch : scratch.flatMap Prod.fst = second) :
    mergeEntries op ((mergeEntries op OrdMap.empty (persistedEntries passes stored)).filter
        fun _ row => rowBlock row < start) (persistedEntries passes replayed)
      = mergeEntries op OrdMap.empty (persistedEntries passes scratch) := by
  apply OrdMap.ext_get?
  intro key
  rw [get?_mergeEntries, OrdMap.get?_filter, get?_mergeEntries, get?_mergeEntries,
    OrdMap.get?_empty, combine_persistedEntries key (hstored ▸ hfirst),
    combine_persistedEntries key (hscratch ▸ hsecond), hstored, hscratch]
  by_cases hbelow : LacksBelow passes number start key first
  · have hapart : (replayed.flatMap Prod.fst).Pairwise (Apart passes) := by
      rw [hreplayed]
      exact hsecond.filter _
    rw [filter_combine_of_lacks_below hop howned hbelow, combine_persistedEntries key hapart,
      hreplayed]
    rw [LacksBelow, hagree] at hbelow
    rw [rowsAt_entries_of_lacks_below hbelow]
  · have hbelowSecond : ¬ LacksBelow passes number start key second := by
      rwa [LacksBelow, hagree] at hbelow
    have hnone : rowsAt key (persistedEntries passes replayed) = [] := by
      refine rowsAt_persistedEntries_eq_nil fun block hblock => ?_
      rw [hreplayed] at hblock
      obtain ⟨hmem, hstart⟩ := List.mem_filter.mp hblock
      exact lacks_from_of_has_below hsecond hbelowSecond block hmem (by simpa using hstart)
    rw [filter_combine_of_has_below hop howned hfirst hbelow, hnone,
      ← rowsAt_entries_of_has_below hfirst hbelow, hagree,
      rowsAt_entries_of_has_below hsecond hbelowSecond]
    rfl

end Rewind

end Blocks

end Lib.Replay
