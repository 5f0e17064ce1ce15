import Mathlib.Algebra.GroupWithZero.Nat
import Mathlib.Data.List.Forall2
import Mathlib.Tactic.Cases
import Mathlib.Tactic.SplitIfs

/-!
# Reading bytes with a cursor

A cursor is a byte string and a position in it. A reader moves the cursor and returns a value, or fails.
`Reads` says of a reader that it takes given bytes for a given value, wherever in a string they stand,
and its rules follow the way a reader is put together.
-/

namespace Lib

structure Cursor where
  bytes : List UInt8
  position : Nat

namespace Cursor

variable {ε α β : Type} {bytes : List UInt8} {encodings : List (List UInt8)} {width : Nat}

abbrev Reader (ε α : Type) := StateT Cursor (Except ε) α

def remaining (cursor : Cursor) : Nat := cursor.bytes.length - cursor.position

def readExact (short : ε) (length : Nat) : Reader ε (List UInt8) := fun cursor =>
  if cursor.bytes.length < cursor.position + length then .error short
  else .ok ((cursor.bytes.drop cursor.position).take length,
    { cursor with position := cursor.position + length })

def readMany (reader : Reader ε α) : Nat → Reader ε (List α)
  | 0 => pure []
  | count + 1 => do
      let first ← reader
      let rest ← readMany reader count
      pure (first :: rest)

def littleEndian (bytes : List UInt8) : Nat :=
  bytes.foldr (fun byte value => byte.toNat + 256 * value) 0

def bigEndian (bytes : List UInt8) : Nat :=
  bytes.foldl (fun value byte => 256 * value + byte.toNat) 0

def readLittleEndian (short : ε) (width : Nat) : Reader ε Nat := do
  let bytes ← readExact short width
  pure (littleEndian bytes)

/-! ### What a reader takes -/

/-- The reader takes the bytes and returns the value. -/
def Reads (reader : Reader ε α) (bytes : List UInt8) (value : α) : Prop :=
  ∀ before after, reader ⟨before ++ (bytes ++ after), before.length⟩
    = .ok (value, ⟨before ++ (bytes ++ after), before.length + bytes.length⟩)

theorem Reads.pure (value : α) : Reads (pure value : Reader ε α) [] value := by
  intro before after
  rfl

variable {value : α} {reader : Reader ε α}

theorem Reads.bind {next : α → Reader ε β} {rest : List UInt8} {result : β}
    (hreads : Reads reader bytes value) (hnext : Reads (next value) rest result) :
    Reads (reader >>= next) (bytes ++ rest) result := by
  intro before after
  have hfirst := hreads before (rest ++ after)
  have hsecond := hnext (before ++ bytes) after
  rw [List.length_append, List.append_assoc] at hsecond
  change (reader ⟨_, _⟩ >>= fun found => next found.1 found.2) = _
  rw [List.append_assoc, List.length_append, ← Nat.add_assoc, hfirst]
  exact hsecond

theorem Reads.map {reader : Reader ε α} {bytes : List UInt8} {value : α} {make : α → β}
    (hreads : Reads reader bytes value) :
    Reads (do let found ← reader; Pure.pure (make found)) bytes (make value) := by
  have hboth : Reads (do let found ← reader; Pure.pure (make found)) (bytes ++ []) (make value) :=
    hreads.bind (Reads.pure (make value))
  rwa [List.append_nil] at hboth

theorem reads_exact (short : ε) (bytes : List UInt8) :
    Reads (readExact short bytes.length) bytes bytes := by
  intro before after
  have henough : ¬ (before ++ (bytes ++ after)).length < before.length + bytes.length := by
    rw [List.length_append, List.length_append]
    omega
  rw [readExact, if_neg henough, List.drop_left, List.take_left]

theorem Reads.many {values : List α} (hreads : List.Forall₂ (Reads reader) encodings values) :
    Reads (readMany reader values.length) encodings.flatten values := by
  induction hreads with
  | nil => exact Reads.pure []
  | cons hfirst _ ih =>
      exact hfirst.bind ih.map

theorem Reads.whole (hreads : Reads reader bytes value) :
    reader ⟨bytes, 0⟩ = .ok (value, ⟨bytes, bytes.length⟩) := by
  have hall := hreads [] []
  rwa [List.append_nil, List.nil_append, List.length_nil, Nat.zero_add] at hall

theorem Reads.unique {other rest otherRest : List UInt8} {otherValue : α}
    (hreads : Reads reader bytes value) (hother : Reads reader other otherValue)
    (hsame : bytes ++ rest = other ++ otherRest) :
    value = otherValue ∧ bytes = other ∧ rest = otherRest := by
  have hfirst := hreads [] rest
  have hsecond := hother [] otherRest
  rw [← hsame, hfirst] at hsecond
  obtain ⟨hvalue, hcursor⟩ := Prod.mk.inj (Except.ok.inj hsecond)
  have hposition := congrArg position hcursor
  obtain ⟨hbytes, hrest⟩ := List.append_inj hsame (Nat.add_left_cancel hposition)
  exact ⟨hvalue, hbytes, hrest⟩

theorem Reads.flatten_injective {others : List (List UInt8)} {values otherValues : List α}
    (hreads : List.Forall₂ (Reads reader) encodings values)
    (hothers : List.Forall₂ (Reads reader) others otherValues)
    (hne : ∀ encoding ∈ encodings, encoding ≠ []) (hotherNe : ∀ encoding ∈ others, encoding ≠ [])
    (hsame : encodings.flatten = others.flatten) : values = otherValues := by
  induction hreads generalizing others otherValues with
  | nil =>
      cases hothers with
      | nil => rfl
      | cons _ _ =>
          rw [List.forall_mem_cons] at hotherNe
          rw [List.flatten_nil, List.flatten_cons, eq_comm, List.append_eq_nil_iff] at hsame
          exact absurd hsame.1 hotherNe.1
  | cons hfirst _ ih =>
      rw [List.forall_mem_cons] at hne
      cases hothers with
      | nil =>
          rw [List.flatten_nil, List.flatten_cons, List.append_eq_nil_iff] at hsame
          exact absurd hsame.1 hne.1
      | cons hother hothers =>
          rw [List.forall_mem_cons] at hotherNe
          obtain ⟨hvalue, -, hrest⟩ := hfirst.unique hother hsame
          rw [hvalue, ih hothers hne.2 hotherNe.2 hrest]

/-! ### Numbers -/

theorem littleEndian_range {value : Nat} (hvalue : value < 256 ^ width) :
    littleEndian ((List.range width).map fun index => UInt8.ofNat (value / 256 ^ index)) = value := by
  induction width generalizing value with
  | zero =>
      rw [Nat.pow_zero, Nat.lt_one_iff] at hvalue
      rw [hvalue]
      rfl
  | succ width ih =>
      have hshift : ∀ index, value / 256 ^ (index + 1) = value / 256 / 256 ^ index := by
        intro index
        rw [Nat.pow_succ, Nat.mul_comm, Nat.div_div_eq_div_mul]
      have hrest := @ih (value / 256) (by
        exact Nat.div_lt_of_lt_mul (by omega))
      rw [List.range_succ_eq_map, List.map_cons, List.map_map]
      simp only [Function.comp_def, Nat.succ_eq_add_one, hshift]
      rw [littleEndian] at hrest ⊢
      rw [List.foldr_cons, hrest, Nat.pow_zero, Nat.div_one, UInt8.toNat_ofNat']
      omega

theorem bigEndian_reverse (bytes : List UInt8) : bigEndian bytes.reverse = littleEndian bytes := by
  rw [bigEndian, List.foldl_reverse]
  simp only [littleEndian, Nat.add_comm]

theorem bigEndian_range {value : Nat} (hvalue : value < 256 ^ width) :
    bigEndian ((List.range width).map fun index => UInt8.ofNat (value / 256 ^ (width - 1 - index)))
      = value := by
  have hreverse := littleEndian_range hvalue
  rw [← bigEndian_reverse, ← List.map_reverse, List.range_eq_range', List.reverse_range',
    List.map_map] at hreverse
  simpa [Function.comp_def] using hreverse

theorem reads_littleEndian (short : ε) {value : Nat} (hvalue : value < 256 ^ width) :
    Reads (readLittleEndian short width)
      ((List.range width).map fun index => UInt8.ofNat (value / 256 ^ index)) value := by
  have hbytes := reads_exact short
    ((List.range width).map fun index => UInt8.ofNat (value / 256 ^ index))
  rw [List.length_map, List.length_range] at hbytes
  have hread := @Reads.map _ _ _ _ _ _ littleEndian hbytes
  rwa [littleEndian_range hvalue] at hread

end Cursor

end Lib
