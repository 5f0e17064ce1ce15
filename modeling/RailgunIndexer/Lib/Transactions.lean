import RailgunIndexer.Lib.Run
import Mathlib.Logic.Function.Basic

/-!
# Transactions over rows

Transactions run statements on single rows, one at a time and in any order among each other. A statement
sees what its own transaction wrote to the row, or else the committed row. It writes the row only while no
other running transaction has written it. A transaction that is done may commit what it wrote, and any
may be rolled back.

Two rules follow from a relation between rows that every statement keeps. The committed rows change along
the relation over whole runs. And a fact about a row that the relation keeps, once a transaction has
established it, holds until the transaction commits and ever after.
-/

namespace Lib.Transactions

variable {κ ε ι : Type} {ρ : κ → Type}

/-! ### Sessions -/

/-- What a transaction has left to do. A statement on a row writes it or not and goes on, both depending
on the row it sees. -/
inductive Session (κ : Type) (ρ : κ → Type) (ε : Type) where
  | done
  | fail (error : ε)
  | exec (key : κ) (writes : Option (ρ key) → Option (ρ key))
      (next : Option (ρ key) → Session κ ρ ε)

namespace Session

def andThen : Session κ ρ ε → Session κ ρ ε → Session κ ρ ε
  | done, later => later
  | fail error, _ => fail error
  | exec key writes next, later => exec key writes fun seen => (next seen).andThen later

def sequence {α : Type} (session : α → Session κ ρ ε) (items : List α) : Session κ ρ ε :=
  items.foldr (fun item rest => (session item).andThen rest) done

def require {α : Type} (check : Except ε α) (next : α → Session κ ρ ε) : Session κ ρ ε :=
  match check with
  | .ok value => next value
  | .error error => fail error

end Session

/-! ### The system -/

abbrev Rows (κ : Type) (ρ : κ → Type) := (key : κ) → Option (ρ key)

def overlay (written rows : Rows κ ρ) : Rows κ ρ := fun key => (written key).or (rows key)

section System

variable [DecidableEq κ] [DecidableEq ι]

def put (rows : Rows κ ρ) (key : κ) : Option (ρ key) → Rows κ ρ
  | none => rows
  | some row => Function.update rows key (some row)

inductive Phase (κ : Type) (ρ : κ → Type) (ε : Type) where
  | idle
  | running (session : Session κ ρ ε) (written : Rows κ ρ)
  | committed
  | rolledBack

structure State (κ : Type) (ρ : κ → Type) (ε ι : Type) where
  rows : Rows κ ρ
  phase : ι → Phase κ ρ ε

def State.start (rows : Rows κ ρ) : State κ ρ ε ι := ⟨rows, fun _ => .idle⟩

inductive Event (ι : Type) where
  | start (name : ι)
  | run (name : ι)
  | commit (name : ι)
  | rollBack (name : ι)

def State.Free (state : State κ ρ ε ι) (name : ι) (key : κ) : Prop :=
  ∀ other session written, other ≠ name → state.phase other = .running session written →
    written key = none

inductive Step (programs : ι → Session κ ρ ε) (state : State κ ρ ε ι) :
    Event ι → State κ ρ ε ι → Prop
  | start {name : ι} (hphase : state.phase name = .idle) :
      Step programs state (.start name) ⟨state.rows, Function.update state.phase name
        (.running (programs name) fun _ => none)⟩
  | run {name : ι} {key : κ} {writes : Option (ρ key) → Option (ρ key)}
      {next : Option (ρ key) → Session κ ρ ε} {written : Rows κ ρ}
      (hphase : state.phase name = .running (.exec key writes next) written)
      (hfree : writes (overlay written state.rows key) ≠ none → state.Free name key) :
      Step programs state (.run name) ⟨state.rows, Function.update state.phase name
        (.running (next (overlay written state.rows key))
          (put written key (writes (overlay written state.rows key))))⟩
  | commit {name : ι} {written : Rows κ ρ}
      (hphase : state.phase name = .running .done written) :
      Step programs state (.commit name)
        ⟨overlay written state.rows, Function.update state.phase name .committed⟩
  | rollBack {name : ι} {session : Session κ ρ ε} {written : Rows κ ρ}
      (hphase : state.phase name = .running session written) :
      Step programs state (.rollBack name)
        ⟨state.rows, Function.update state.phase name .rolledBack⟩

/-- How a session ends, and the rows it leaves, if it runs alone. -/
def Session.eval : Session κ ρ ε → Rows κ ρ → Except ε Unit × Rows κ ρ
  | .done, rows => (.ok (), rows)
  | .fail error, rows => (.error error, rows)
  | .exec key writes next, rows => (next (rows key)).eval (put rows key (writes (rows key)))

/-- Rows kept in a store of another shape. -/
structure Backing (κ : Type) [DecidableEq κ] (ρ : κ → Type) (τ : Type) where
  get : τ → Rows κ ρ
  set : τ → (key : κ) → ρ key → τ
  get_set : ∀ store key row, get (set store key row) = Function.update (get store) key (some row)

def Session.runIn {τ : Type} (backing : Backing κ ρ τ) : Session κ ρ ε → τ → Except ε Unit × τ
  | .done, store => (.ok (), store)
  | .fail error, store => (.error error, store)
  | .exec key writes next, store =>
      (next (backing.get store key)).runIn backing
        ((writes (backing.get store key)).elim store (backing.set store key))

end System

/-! ### What sessions do -/

abbrev Change (κ : Type) (ρ : κ → Type) := (key : κ) → Option (ρ key) → Option (ρ key) → Prop

structure Change.Preorder (R : Change κ ρ) : Prop where
  refl : ∀ key row, R key row row
  trans : ∀ key first second third, R key first second → R key second third → R key first third

def Change.outside (K : κ → Prop) : Change κ ρ := fun key old new => K key ∨ new = old

theorem Change.outside_preorder (K : κ → Prop) : (Change.outside K : Change κ ρ).Preorder where
  refl _ _ := .inr rfl
  trans _ _ _ _ hfirst hsecond := by
    rcases hfirst with hkey | rfl
    · exact .inl hkey
    · exact hsecond

def Change.Stable (R : Change κ ρ) (key : κ) (P : Option (ρ key) → Prop) : Prop :=
  ∀ old new, P old → R key old new → P new

namespace Session

/-- Every statement changes its row as allowed. -/
def Keeps (R : Change κ ρ) : Session κ ρ ε → Prop
  | done => True
  | fail _ => True
  | exec key writes next => ∀ seen, (∀ row, writes seen = some row → R key seen (some row))
      ∧ (next seen).Keeps R

/-- On every way to its end, unless it fails, the session sees or writes a row with the fact. -/
def Ensures (key : κ) (P : Option (ρ key) → Prop) : Session κ ρ ε → Prop
  | done => False
  | fail _ => True
  | exec place writes next => ∀ seen,
      (∃ heq : place = key, P (heq ▸ (writes seen).or seen)) ∨ (next seen).Ensures key P

/-- While the rows have their facts, the session neither writes nor fails. -/
def Passes (F : (key : κ) → Option (ρ key) → Prop) : Session κ ρ ε → Prop
  | done => True
  | fail _ => False
  | exec key writes next => ∀ seen, F key seen → writes seen = none ∧ (next seen).Passes F

variable {R : Change κ ρ} {F : (key : κ) → Option (ρ key) → Prop} {key : κ}
  {P : Option (ρ key) → Prop} {session later : Session κ ρ ε}

theorem Keeps.andThen (hsession : session.Keeps R) (hlater : later.Keeps R) :
    (session.andThen later).Keeps R := by
  induction session with
  | done => exact hlater
  | fail error => exact hsession
  | exec place writes next ih =>
      intro seen
      exact ⟨(hsession seen).1, ih seen (hsession seen).2⟩

theorem Ensures.andThen_left (hsession : session.Ensures key P) :
    (session.andThen later).Ensures key P := by
  induction session with
  | done => exact hsession.elim
  | fail error => exact hsession
  | exec place writes next ih =>
      intro seen
      exact (hsession seen).imp_right (ih seen)

theorem Ensures.andThen_right (hlater : later.Ensures key P) :
    (session.andThen later).Ensures key P := by
  induction session with
  | done => exact hlater
  | fail error => trivial
  | exec place writes next ih => exact fun seen => .inr (ih seen)

theorem Passes.andThen (hsession : session.Passes F) (hlater : later.Passes F) :
    (session.andThen later).Passes F := by
  induction session with
  | done => exact hlater
  | fail error => exact hsession
  | exec place writes next ih =>
      intro seen hseen
      exact ⟨(hsession seen hseen).1, ih seen (hsession seen hseen).2⟩

section Sequence

variable {α : Type} {step : α → Session κ ρ ε} {items : List α}

theorem keeps_sequence (hitems : ∀ item ∈ items, (step item).Keeps R) :
    (sequence step items).Keeps R := by
  induction items with
  | nil => trivial
  | cons item items ih =>
      rw [List.forall_mem_cons] at hitems
      exact hitems.1.andThen (ih hitems.2)

theorem ensures_sequence {item : α} (hitem : item ∈ items) (hensures : (step item).Ensures key P) :
    (sequence step items).Ensures key P := by
  induction items with
  | nil => cases hitem
  | cons first items ih =>
      rcases List.mem_cons.mp hitem with rfl | hitem
      · exact hensures.andThen_left
      · exact (ih hitem).andThen_right

theorem passes_sequence (hitems : ∀ item ∈ items, (step item).Passes F) :
    (sequence step items).Passes F := by
  induction items with
  | nil => trivial
  | cons item items ih =>
      rw [List.forall_mem_cons] at hitems
      exact hitems.1.andThen (ih hitems.2)

end Sequence

section Require

variable {α : Type} {check : Except ε α} {next : α → Session κ ρ ε}

theorem keeps_require (hnext : ∀ value, check = .ok value → (next value).Keeps R) :
    (require check next).Keeps R := by
  cases check with
  | error error => trivial
  | ok value => exact hnext value rfl

theorem ensures_require (hnext : ∀ value, check = .ok value → (next value).Ensures key P) :
    (require check next).Ensures key P := by
  cases check with
  | error error => trivial
  | ok value => exact hnext value rfl

end Require

end Session

/-! ### Rows seen and written -/

section Rows

variable {rows written : Rows κ ρ} {key other : κ} {row : Option (ρ key)}

theorem overlay_of_none (hnone : written key = none) : overlay written rows key = rows key := by
  rw [overlay, hnone, Option.none_or]

theorem overlay_of_some {found : ρ key} (hsome : written key = some found) :
    overlay written rows key = some found := by
  rw [overlay, hsome, Option.some_or]

variable [DecidableEq κ]

theorem put_same : put rows key row key = row.or (rows key) := by
  cases row with
  | none => rfl
  | some row => exact Function.update_self key (some row) rows

theorem put_of_ne (hne : other ≠ key) : put rows key row other = rows other := by
  cases row with
  | none => rfl
  | some row => exact Function.update_of_ne hne (some row) rows

theorem overlay_put : overlay (put written key row) rows = put (overlay written rows) key row := by
  funext other
  by_cases hsame : other = key
  · subst hsame
    rw [overlay, put_same, put_same, Option.or_assoc, overlay]
  · rw [overlay, put_of_ne hsame, put_of_ne hsame, overlay]

variable {R : Change κ ρ} {P : Option (ρ key) → Prop} {place : κ}
  {writes : Option (ρ place) → Option (ρ place)} {next : Option (ρ place) → Session κ ρ ε}

theorem Session.Ensures.exec (hstable : R.Stable key P)
    (hkeeps : (Session.exec place writes next).Keeps R)
    (hensures : P (rows key) ∨ (Session.exec place writes next).Ensures key P) :
    P (put rows place (writes (rows place)) key) ∨ (next (rows place)).Ensures key P := by
  rcases hensures with hfact | hensures
  · left
    by_cases hsame : key = place
    · subst hsame
      rw [put_same]
      cases hwrote : writes (rows key) with
      | none => exact hfact
      | some row => exact hstable _ _ hfact ((hkeeps _).1 row hwrote)
    · rw [put_of_ne hsame]
      exact hfact
  · rcases hensures (rows place) with ⟨rfl, hfact⟩ | hnext
    · left
      rw [put_same]
      exact hfact
    · exact .inr hnext

end Rows

/-! ### Runs -/

section Runs

variable [DecidableEq κ] [DecidableEq ι] {programs : ι → Session κ ρ ε} {R : Change κ ρ}
  {state next : State κ ρ ε ι} {event : Event ι} {phase : Phase κ ρ ε}
  {events : List (Event ι)}

/-- A running transaction has changed rows as allowed, and so it stays with what is left to do. -/
structure Keeping (R : Change κ ρ) (rows : Rows κ ρ) (session : Session κ ρ ε) (written : Rows κ ρ) :
    Prop where
  changes : ∀ key row, written key = some row → R key (rows key) (some row)
  keeps : session.Keeps R

/-- Each running transaction keeps to the changes, and what one has written is free from the others. -/
structure Sound (R : Change κ ρ) (state : State κ ρ ε ι) : Prop where
  free : ∀ name session written key row, state.phase name = .running session written →
    written key = some row → state.Free name key
  keeping : ∀ name session written, state.phase name = .running session written →
    Keeping R state.rows session written

omit [DecidableEq κ] [DecidableEq ι] in
theorem sound_start (rows : Rows κ ρ) : Sound R (State.start rows : State κ ρ ε ι) := by
  constructor
  · intro name session written key row hphase
    cases hphase
  · intro name session written hphase
    cases hphase

omit [DecidableEq κ] [DecidableEq ι] in
theorem Keeping.change_seen {rows written : Rows κ ρ} {session : Session κ ρ ε} (hR : R.Preorder)
    (hkeeping : Keeping R rows session written) (key : κ) :
    R key (rows key) (overlay written rows key) := by
  cases hwritten : written key with
  | none =>
      rw [overlay_of_none hwritten]
      exact hR.refl key _
  | some row =>
      rw [overlay_of_some hwritten]
      exact hkeeping.changes key row hwritten

omit [DecidableEq κ] in
theorem update_phase_eq {phase : ι → Phase κ ρ ε} {other : ι} {value found : Phase κ ρ ε} :
    Function.update phase name value other = found
      ↔ (other = name ∧ value = found) ∨ (other ≠ name ∧ phase other = found) := by
  by_cases hsame : other = name
  · subst hsame
    simp
  · simp [hsame]

omit [DecidableEq κ] in
theorem Sound.update (hsound : Sound R state) {rows : Rows κ ρ}
    (hothers : ∀ other session written, other ≠ name → state.phase other = .running session written
      → Keeping R rows session written)
    (hname : ∀ session written, phase = .running session written → Keeping R rows session written
      ∧ ∀ key row, written key = some row → state.Free name key) :
    Sound R ⟨rows, Function.update state.phase name phase⟩ := by
  constructor
  · intro holder session written key row hphase hwritten other left held hne hother
    rcases update_phase_eq.mp hphase with ⟨rfl, hsame⟩ | ⟨hnot, hbefore⟩
    · rcases update_phase_eq.mp hother with ⟨rfl, -⟩ | ⟨-, hkept⟩
      · exact absurd rfl hne
      · exact (hname session written hsame).2 key row hwritten other left held hne hkept
    · rcases update_phase_eq.mp hother with ⟨rfl, hsame⟩ | ⟨-, hkept⟩
      · cases hheld : held key with
        | none => rfl
        | some found =>
            have hnone := (hname left held hsame).2 key found hheld holder session written hnot hbefore
            rw [hnone] at hwritten
            cases hwritten
      · exact hsound.free holder session written key row hbefore hwritten other left held hne hkept
  · intro other session written hphase
    rcases update_phase_eq.mp hphase with ⟨-, hsame⟩ | ⟨hnot, hphase⟩
    · exact (hname session written hsame).1
    · exact hothers other session written hnot hphase

omit [DecidableEq ι] in
theorem Keeping.run {rows written : Rows κ ρ} {key : κ} {writes : Option (ρ key) → Option (ρ key)}
    {next : Option (ρ key) → Session κ ρ ε} (hR : R.Preorder)
    (hkeeping : Keeping R rows (.exec key writes next) written) :
    Keeping R rows (next (overlay written rows key))
      (put written key (writes (overlay written rows key))) := by
  obtain ⟨hwrites, hnext⟩ := hkeeping.keeps (overlay written rows key)
  refine ⟨?_, hnext⟩
  intro other row hrow
  by_cases hsame : other = key
  · subst hsame
    rw [put_same] at hrow
    rcases Option.or_eq_some_iff.mp hrow with hwrote | ⟨-, hwritten⟩
    · exact hR.trans other _ _ _ (hkeeping.change_seen hR other) (hwrites row hwrote)
    · exact hkeeping.changes other row hwritten
  · rw [put_of_ne hsame] at hrow
    exact hkeeping.changes other row hrow

/-- **One step.** The system stays sound, and the committed rows change as allowed. -/
theorem Sound.step (hR : R.Preorder) (hprograms : ∀ name, (programs name).Keeps R)
    (hsound : Sound R state) (hstep : Step programs state event next) :
    Sound R next ∧ ∀ key, R key (state.rows key) (next.rows key) := by
  have hsame : ∀ other session written, state.phase other = .running session written →
      Keeping R state.rows session written := hsound.keeping
  cases hstep with
  | @start name hphase =>
      refine ⟨hsound.update (fun other session written _ => hsame other session written) ?_,
        fun key => hR.refl key _⟩
      intro session written hrunning
      cases hrunning
      refine ⟨⟨?_, hprograms name⟩, ?_⟩
      · intro key row hnone
        cases hnone
      · intro key row hnone
        cases hnone
  | @run name key writes left written hphase hfree =>
      refine ⟨hsound.update (fun other session written _ => hsame other session written) ?_,
        fun key => hR.refl key _⟩
      intro session after hrunning
      cases hrunning
      refine ⟨(hsame _ _ _ hphase).run hR, ?_⟩
      intro other row hrow
      by_cases hkey : other = key
      · subst hkey
        rw [put_same] at hrow
        rcases Option.or_eq_some_iff.mp hrow with hwrote | ⟨-, hwritten⟩
        · exact hfree (by rw [hwrote]; exact Option.some_ne_none row)
        · exact hsound.free _ _ _ _ row hphase hwritten
      · rw [put_of_ne hkey] at hrow
        exact hsound.free _ _ _ _ row hphase hrow
  | @commit name written hphase =>
      have hkeeping := hsame _ _ _ hphase
      refine ⟨hsound.update ?_ ?_, hkeeping.change_seen hR⟩
      · intro other session held hne hother
        have hothers := hsame _ _ _ hother
        refine ⟨?_, hothers.keeps⟩
        intro key row hrow
        have hnone := hsound.free _ _ _ _ row hother hrow _ _ _ hne.symm hphase
        rw [overlay_of_none hnone]
        exact hothers.changes key row hrow
      · intro session held hrunning
        cases hrunning
  | @rollBack name session written hphase =>
      refine ⟨hsound.update (fun other session written _ => hsame other session written) ?_,
        fun key => hR.refl key _⟩
      intro session held hrunning
      cases hrunning

/-- **Every run.** -/
theorem Sound.reaches (hR : R.Preorder) (hprograms : ∀ name, (programs name).Keeps R)
    (hsound : Sound R state)
    (hrun : Run.Reaches (Step programs) state events next) :
    Sound R next ∧ ∀ key, R key (state.rows key) (next.rows key) := by
  apply hrun.invariant (I := fun _ next => Sound R next ∧ ∀ key, R key (state.rows key) (next.rows key))
    ⟨hsound, fun key => hR.refl key _⟩
  rintro - middle event after ⟨hmiddle, hchange⟩ hstep
  obtain ⟨hafter, hlast⟩ := hmiddle.step hR hprograms hstep
  exact ⟨hafter, fun key => hR.trans key _ _ _ (hchange key) (hlast key)⟩

/-! ### Facts a transaction establishes -/

variable {name : ι} {key : κ} {P : Option (ρ key) → Prop}

/-- The transaction sees the row with the fact, or will before its end. Once it has committed, the
committed row has the fact. -/
structure Establishes (name : ι) (key : κ) (P : Option (ρ key) → Prop) (state : State κ ρ ε ι) :
    Prop where
  running : ∀ session written, state.phase name = .running session written →
    P (overlay written state.rows key) ∨ session.Ensures key P
  committed : state.phase name = .committed → P (state.rows key)

omit [DecidableEq κ] [DecidableEq ι] in
theorem establishes_start (rows : Rows κ ρ) :
    Establishes name key P (State.start rows : State κ ρ ε ι) := by
  constructor
  · intro session written hphase
    cases hphase
  · intro hphase
    cases hphase

omit [DecidableEq κ] in
theorem establishes_self {rows : Rows κ ρ}
    (hrunning : ∀ session written, phase = .running session written → P (overlay written rows key) ∨
      session.Ensures key P) (hcommitted : phase = .committed → P (rows key)) :
    Establishes name key P ⟨rows, Function.update state.phase name phase⟩ := by
  constructor
  · intro session written hphase
    exact hrunning session written ((Function.update_self name phase state.phase).symm.trans hphase)
  · intro hphase
    exact hcommitted ((Function.update_self name phase state.phase).symm.trans hphase)

omit [DecidableEq κ] in
theorem Establishes.other (hestablishes : Establishes name key P state) (hstable : R.Stable key P)
    {other : ι} (hne : name ≠ other) {rows : Rows κ ρ} (hrows : R key (state.rows key) (rows key)) :
    Establishes name key P ⟨rows, Function.update state.phase other phase⟩ := by
  constructor
  · intro session written hphase
    rcases update_phase_eq.mp hphase with ⟨hsame, -⟩ | ⟨-, hbefore⟩
    · exact absurd hsame hne
    · apply (hestablishes.running session written hbefore).imp_left
      intro hfact
      cases hwritten : written key with
      | none =>
          rw [overlay_of_none hwritten] at hfact ⊢
          exact hstable _ _ hfact hrows
      | some row =>
          rw [overlay_of_some hwritten] at hfact ⊢
          exact hfact
  · intro hphase
    rcases update_phase_eq.mp hphase with ⟨hsame, -⟩ | ⟨-, hbefore⟩
    · exact absurd hsame hne
    · exact hstable _ _ (hestablishes.committed hbefore) hrows

theorem Establishes.step (hR : R.Preorder) (hstable : R.Stable key P) (hsound : Sound R state)
    (hprogram : (programs name).Ensures key P) (hestablishes : Establishes name key P state)
    (hstep : Step programs state event next) : Establishes name key P next := by
  cases hstep with
  | @start other hphase =>
      by_cases hname : name = other
      · subst hname
        apply establishes_self
        · intro session written hrunning
          cases hrunning
          exact .inr hprogram
        · intro hcommitted
          cases hcommitted
      · exact hestablishes.other hstable hname (hR.refl key _)
  | @run other place writes left written hphase hfree =>
      by_cases hname : name = other
      · subst hname
        apply establishes_self
        · intro session after hrunning
          cases hrunning
          rw [overlay_put]
          exact Session.Ensures.exec hstable (hsound.keeping _ _ _ hphase).keeps
            (hestablishes.running _ _ hphase)
        · intro hcommitted
          cases hcommitted
      · exact hestablishes.other hstable hname (hR.refl key _)
  | @commit other written hphase =>
      by_cases hname : name = other
      · subst hname
        apply establishes_self
        · intro session after hrunning
          cases hrunning
        · intro _
          exact (hestablishes.running _ _ hphase).resolve_right id
      · exact hestablishes.other hstable hname ((hsound.keeping _ _ _ hphase).change_seen hR key)
  | @rollBack other session written hphase =>
      by_cases hname : name = other
      · subst hname
        apply establishes_self
        · intro session after hrunning
          cases hrunning
        · intro hcommitted
          cases hcommitted
      · exact hestablishes.other hstable hname (hR.refl key _)

theorem Establishes.reaches (hR : R.Preorder) (hstable : R.Stable key P)
    (hprograms : ∀ name, (programs name).Keeps R) (hprogram : (programs name).Ensures key P)
    (hsound : Sound R state) (hestablishes : Establishes name key P state)
    (hrun : Run.Reaches (Step programs) state events next) : Establishes name key P next := by
  have hboth := hrun.invariant (I := fun _ next => Sound R next ∧ Establishes name key P next)
    ⟨hsound, hestablishes⟩ (by
      rintro - middle event after ⟨hmiddle, hbefore⟩ hstep
      exact ⟨(hmiddle.step hR hprograms hstep).1, hbefore.step hR hstable hmiddle hprogram hstep⟩)
  exact hboth.2

/-! ### Transactions that only look -/

variable {F : (key : κ) → Option (ρ key) → Prop}

/-- The transaction has written nothing and will not, nor fail, while the rows have their facts. -/
def Looks (F : (key : κ) → Option (ρ key) → Prop) (name : ι) (state : State κ ρ ε ι) : Prop :=
  ∀ session written, state.phase name = .running session written →
    (∀ key, written key = none) ∧ session.Passes F

theorem Looks.step (hprogram : (programs name).Passes F) (hfacts : ∀ key, F key (state.rows key))
    (hlooks : Looks F name state) (hstep : Step programs state event next) : Looks F name next := by
  intro session written hphase
  cases hstep with
  | @start other hidle =>
      rcases update_phase_eq.mp hphase with ⟨rfl, hsame⟩ | ⟨-, hbefore⟩
      · cases hsame
        exact ⟨fun _ => rfl, hprogram⟩
      · exact hlooks session written hbefore
  | @run other place writes left held hrunning hfree =>
      rcases update_phase_eq.mp hphase with ⟨rfl, hsame⟩ | ⟨-, hbefore⟩
      · cases hsame
        obtain ⟨hnone, hpasses⟩ := hlooks _ held hrunning
        obtain ⟨hwrites, hleft⟩ := hpasses (overlay held state.rows place) (by
          rw [overlay_of_none (hnone place)]
          exact hfacts place)
        rw [hwrites]
        exact ⟨hnone, hleft⟩
      · exact hlooks session written hbefore
  | @commit other held hrunning | @rollBack other left held hrunning =>
      rcases update_phase_eq.mp hphase with ⟨-, hsame⟩ | ⟨-, hbefore⟩
      · cases hsame
      · exact hlooks session written hbefore

theorem Looks.reaches (hR : R.Preorder) (hstable : ∀ key, R.Stable key (F key))
    (hprograms : ∀ name, (programs name).Keeps R) (hprogram : (programs name).Passes F)
    (hsound : Sound R state) (hfacts : ∀ key, F key (state.rows key)) (hlooks : Looks F name state)
    (hrun : Run.Reaches (Step programs) state events next) :
    Looks F name next ∧ ∀ key, F key (next.rows key) := by
  have hall := hrun.invariant (I := fun _ next => Sound R next ∧ Looks F name next
    ∧ ∀ key, F key (next.rows key)) ⟨hsound, hlooks, hfacts⟩ (by
      rintro - middle event after ⟨hmiddle, hbefore, hrows⟩ hstep
      obtain ⟨hafter, hchange⟩ := hmiddle.step hR hprograms hstep
      exact ⟨hafter, hbefore.step hprogram hrows hstep,
        fun key => hstable key _ _ (hrows key) (hchange key)⟩)
  exact hall.2

end Runs

/-! ### Running alone -/

namespace Session

variable [DecidableEq κ] {R : Change κ ρ} {F : (key : κ) → Option (ρ key) → Prop} {key : κ}
  {P : Option (ρ key) → Prop} {session : Session κ ρ ε} {rows after : Rows κ ρ}

theorem Passes.eval_eq (hpasses : session.Passes F) (hfacts : ∀ key, F key (rows key)) :
    session.eval rows = (.ok (), rows) := by
  induction session with
  | done => rfl
  | fail error => exact hpasses.elim
  | exec place writes next ih =>
      obtain ⟨hnone, hnext⟩ := hpasses (rows place) (hfacts place)
      rw [eval, hnone]
      exact ih (rows place) hnext

theorem eval_ensures (hstable : R.Stable key P) (hkeeps : session.Keeps R)
    (hensures : P (rows key) ∨ session.Ensures key P) (heval : session.eval rows = (.ok (), after)) :
    P (after key) := by
  induction session generalizing rows with
  | done =>
      cases heval
      exact hensures.resolve_right id
  | fail error => cases heval
  | exec place writes next ih =>
      exact ih (rows place) (hkeeps (rows place)).2 (Ensures.exec hstable hkeeps hensures) heval

theorem Keeps.eval (hR : R.Preorder) (hkeeps : session.Keeps R) (key : κ) :
    R key (rows key) ((session.eval rows).2 key) := by
  induction session generalizing rows with
  | done | fail error => exact hR.refl key _
  | exec place writes next ih =>
      obtain ⟨hwrites, hnext⟩ := hkeeps (rows place)
      refine hR.trans key _ _ _ ?_ (ih (rows place) hnext)
      by_cases hsame : key = place
      · subst hsame
        rw [put_same]
        cases hwrote : writes (rows key) with
        | none => exact hR.refl key _
        | some row => exact hwrites row hwrote
      · rw [put_of_ne hsame]
        exact hR.refl key _

theorem eval_require_eq_ok {α : Type} {check : Except ε α} {next : α → Session κ ρ ε}
    (heval : (require check next).eval rows = (.ok (), after)) :
    ∃ value, check = .ok value ∧ (next value).eval rows = (.ok (), after) := by
  cases check with
  | error error => cases heval
  | ok value => exact ⟨value, rfl, heval⟩

theorem runIn_eval {τ : Type} (backing : Backing κ ρ τ) (session : Session κ ρ ε) (store : τ) :
    session.eval (backing.get store)
      = ((session.runIn backing store).1, backing.get (session.runIn backing store).2) := by
  induction session generalizing store with
  | done | fail error => rfl
  | exec place writes next ih =>
      rw [eval, runIn, ← ih]
      cases writes (backing.get store place) with
      | none => rfl
      | some row =>
          rw [put, Option.elim_some, backing.get_set]

end Session

end Lib.Transactions
