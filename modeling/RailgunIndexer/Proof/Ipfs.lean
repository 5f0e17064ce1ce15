import RailgunIndexer.Ipfs
import RailgunIndexer.Lib.Fallible

/-!
# What a quorum of services decides

A pin succeeds exactly with a CID that most services returned, if these are a quorum. The presence of
a CID is decided from the services that answered: a quorum of them is enough for a yes, but a no takes
the answers of all services, also where those that failed could not have made up the quorum.
-/

namespace RailgunIndexer

open Lib

namespace MultiPinner

variable {pinner : MultiPinner} {library : IpfsLibrary} {cid : String} {bytes : Bytes}

/-! ### Counting answers -/

section Answers

variable {α : Type} [DecidableEq α] {answer : IpfsClient → Except IpfsError α}

theorem length_servicesThat (value : Option α) : (servicesThat value (pinner.ask answer)).length
      = (pinner.clients.map fun client => (answer client).toOption).count value := by
  rw [servicesThat, List.length_map, ask, List.filter_map, List.length_map,
    ← List.countP_eq_length_filter, List.count_eq_countP, List.countP_map]
  apply List.countP_congr
  intro client _
  simp

omit [DecidableEq α] in
theorem serviceFailure_eq_none {result : String × Except IpfsError α} :
    serviceFailure library result = none ↔ result.2.toOption ≠ none := by
  obtain ⟨service, outcome⟩ := result
  cases outcome <;> simp [serviceFailure, Except.toOption]

theorem failures_eq_nil_iff : (pinner.ask answer).filterMap (serviceFailure library) = []
    ↔ (pinner.clients.map fun client => (answer client).toOption).count none = 0 := by
  rw [List.filterMap_eq_nil_iff, List.count_eq_zero, List.mem_map, not_exists]
  constructor
  · rintro hnone client ⟨hclient, hfailed⟩
    have hresult := hnone _ (List.mem_map_of_mem hclient)
    exact serviceFailure_eq_none.mp hresult hfailed
  · intro hall result hresult
    obtain ⟨client, hclient, rfl⟩ := List.mem_map.mp hresult
    exact serviceFailure_eq_none.mpr fun hfailed => hall client ⟨hclient, hfailed⟩

end Answers

/-! ### Presence -/

def answers (pinner : MultiPinner) (cid : String) : List (Option Bool) :=
  pinner.clients.map fun client => (client.contains cid).toOption

theorem contains_eq_true_iff : pinner.contains library cid = .ok true
    ↔ pinner.quorum ≤ (pinner.answers cid).count (some true) := by
  rw [contains, length_servicesThat, ← answers]
  by_cases hquorum : pinner.quorum ≤ (pinner.answers cid).count (some true)
  · simp [hquorum]
  · split_ifs <;> simp [hquorum]

theorem contains_eq_false_iff : pinner.contains library cid = .ok false
    ↔ (pinner.answers cid).count (some true) < pinner.quorum
      ∧ (pinner.answers cid).count none = 0 := by
  rw [contains, length_servicesThat, ← answers]
  by_cases hquorum : pinner.quorum ≤ (pinner.answers cid).count (some true)
  · simp [hquorum]
  · rw [if_neg hquorum]
    by_cases hnone : (pinner.answers cid).count none = 0
    · rw [if_pos (failures_eq_nil_iff.mpr hnone)]
      simp [hnone, Nat.lt_of_not_le hquorum]
    · rw [if_neg fun hnil => hnone (failures_eq_nil_iff.mp hnil)]
      simp [hnone]

theorem contains_eq_error {error : IpfsError} (herror : pinner.contains library cid = .error error) :
    (pinner.answers cid).count (some true) < pinner.quorum ∧ (pinner.answers cid).count none ≠ 0
      ∧ ∃ present missing failures,
        error = .containsQuorumUndecidable cid pinner.quorum present missing failures := by
  rw [contains, length_servicesThat, ← answers] at herror
  split_ifs at herror with hquorum hfailures
  refine ⟨Nat.lt_of_not_le hquorum, ?_, _, _, _, (Except.error.inj herror).symm⟩
  intro hnone
  exact hfailures (failures_eq_nil_iff.mpr hnone)

/-- A quorum is reported as present when every way to fill in the failed answers has it, as missing
when none has, and as undecided otherwise. -/
structure DecidesPresence (pinner : MultiPinner) (library : IpfsLibrary) (cid : String) : Prop where
  present : pinner.contains library cid = .ok true
    ↔ ∀ filled, Quorum.Completes (pinner.answers cid) filled → pinner.quorum ≤ filled.count true
  missing : pinner.contains library cid = .ok false
    ↔ ∀ filled, Quorum.Completes (pinner.answers cid) filled → filled.count true < pinner.quorum
  undecided : ∀ error, pinner.contains library cid = .error error →
    (∃ present missing failures,
      error = .containsQuorumUndecidable cid pinner.quorum present missing failures)
    ∧ (∃ filled, Quorum.Completes (pinner.answers cid) filled ∧ pinner.quorum ≤ filled.count true)
    ∧ ∃ filled, Quorum.Completes (pinner.answers cid) filled ∧ filled.count true < pinner.quorum

def FailuresMatter (pinner : MultiPinner) (cid : String) : Prop :=
  (pinner.answers cid).count none = 0
    ∨ pinner.quorum ≤ (pinner.answers cid).count (some true) + (pinner.answers cid).count none

theorem decidesPresence_iff : pinner.DecidesPresence library cid ↔ pinner.FailuresMatter cid := by
  constructor
  · intro hdecides
    by_contra hunmet
    obtain ⟨hfailed, hshort⟩ := not_or.mp hunmet
    have hmissing := hdecides.missing.mpr (Quorum.missed_iff.mpr (Nat.lt_of_not_le hshort))
    exact hfailed (contains_eq_false_iff.mp hmissing).2
  · intro hmatter
    refine ⟨contains_eq_true_iff.trans Quorum.reached_iff.symm, ?_, ?_⟩
    · rw [contains_eq_false_iff, Quorum.missed_iff]
      rcases hmatter with hnone | hle <;> omega
    · intro error herror
      obtain ⟨hshort, hfailed, hshape⟩ := contains_eq_error herror
      refine ⟨hshape, ?_, ?_⟩
      · refine ⟨_, Quorum.completes_getD true, ?_⟩
        rw [Quorum.count_getD_true]
        exact hmatter.resolve_left hfailed
      · refine ⟨_, Quorum.completes_getD false, ?_⟩
        rw [Quorum.count_getD_false]
        exact hshort

/-! ### Pins -/

def returnCount (pinner : MultiPinner) (bytes : Bytes) (cid : String) : Nat :=
  pinner.clients.countP fun client => (client.pinBytes bytes).toOption = some cid

def returns (pinner : MultiPinner) (bytes : Bytes) : List (String × String) :=
  pinner.clients.filterMap fun client =>
    (client.pinBytes bytes).toOption.map fun cid => (client.serviceName, cid)

theorem length_votesFor_returns :
    (Quorum.votesFor (pinner.returns bytes) cid).length = pinner.returnCount bytes cid := by
  rw [Quorum.votesFor, List.length_map, ← List.countP_eq_length_filter, returns,
    List.countP_filterMap, returnCount]
  apply List.countP_congr
  intro client _
  cases (client.pinBytes bytes).toOption <;> simp

theorem foldl_addPinResult {results : List (String × Except IpfsError String)}
    {groups : List (String × List String)} :
    results.foldl addPinResult groups
      = (results.filterMap fun result => result.2.toOption.map fun cid => (result.1, cid)).foldl
        (fun groups vote => Quorum.join vote.2 vote.1 groups) groups := by
  induction results generalizing groups with
  | nil => rfl
  | cons result rest ih =>
      obtain ⟨service, outcome⟩ := result
      rw [List.foldl_cons, ih]
      cases outcome <;> rfl

theorem tallies_returns : Quorum.Tallies (pinner.returns bytes)
    ((pinner.ask fun client => client.pinBytes bytes).foldl addPinResult []) := by
  rw [foldl_addPinResult, ask, List.filterMap_map]
  exact Quorum.tallies_nil.foldl

theorem pinBytes_eq_ok_iff : pinner.pinBytes library bytes = .ok cid
    ↔ ∃ successes, pinner.quorum ≤ successes.length
      ∧ (Quorum.bySize ((pinner.ask fun client => client.pinBytes bytes).foldl addPinResult [])).head?
        = some (cid, successes) := by
  rw [pinBytes]
  cases hgroups : Quorum.bySize ((pinner.ask fun client => client.pinBytes bytes).foldl addPinResult [])
    with
  | nil =>
      cases library.rawBlockCid bytes <;> simp
  | cons first others =>
      dsimp only
      by_cases hquorum : pinner.quorum ≤ first.2.length
      · rw [if_pos hquorum]
        constructor
        · intro hok
          exact ⟨first.2, hquorum, by rw [← Except.ok.inj hok, List.head?_cons]⟩
        · rintro ⟨successes, -, hhead⟩
          rw [Option.some.inj hhead]
      · rw [if_neg hquorum]
        constructor
        · cases library.rawBlockCid bytes <;> simp
        · rintro ⟨successes, hlength, hhead⟩
          rw [Option.some.inj hhead] at hquorum
          exact absurd hlength hquorum

/-- A pin succeeds if a quorum of services returned one CID, with a CID that most of them returned. -/
structure PinsMostReturned (pinner : MultiPinner) (library : IpfsLibrary) (bytes : Bytes) : Prop where
  succeeds : (∃ cid, pinner.pinBytes library bytes = .ok cid)
    ↔ ∃ cid, pinner.quorum ≤ pinner.returnCount bytes cid
  most : ∀ cid, pinner.pinBytes library bytes = .ok cid →
    ∀ other, pinner.returnCount bytes other ≤ pinner.returnCount bytes cid

theorem pinsMostReturned : pinner.PinsMostReturned library bytes := by
  have htallies := @tallies_returns pinner bytes
  have hfirst : ∀ first,
      (Quorum.bySize ((pinner.ask fun client => client.pinBytes bytes).foldl addPinResult [])).head?
        = some first → first.2.length = pinner.returnCount bytes first.1
          ∧ ∀ other, pinner.returnCount bytes other ≤ first.2.length := by
    intro first hhead
    constructor
    · rw [htallies.group_voters (Quorum.length_le_of_head? hhead).1, length_votesFor_returns]
    · intro other
      rw [← length_votesFor_returns]
      exact htallies.most_of_head? hhead other
  refine ⟨⟨?_, ?_⟩, ?_⟩
  · rintro ⟨cid, hok⟩
    obtain ⟨successes, hquorum, hhead⟩ := pinBytes_eq_ok_iff.mp hok
    exact ⟨cid, hquorum.trans_eq (hfirst _ hhead).1⟩
  · rintro ⟨cid, hquorum⟩
    have hvotes : 0 < (Quorum.votesFor (pinner.returns bytes) cid).length := by
      rw [length_votesFor_returns]
      exact pinner.quorum_pos.trans_le hquorum
    obtain ⟨first, hhead⟩ := htallies.exists_head? hvotes
    exact ⟨first.1, pinBytes_eq_ok_iff.mpr ⟨first.2, hquorum.trans ((hfirst _ hhead).2 cid), hhead⟩⟩
  · intro cid hok other
    obtain ⟨successes, -, hhead⟩ := pinBytes_eq_ok_iff.mp hok
    exact ((hfirst _ hhead).2 other).trans_eq (hfirst _ hhead).1

/-- **The services decide exactly if none failed or their failures matter.** Pins always go by the most
returned CID. -/
theorem decides_iff : pinner.PinsMostReturned library bytes ∧ pinner.DecidesPresence library cid
    ↔ pinner.FailuresMatter cid := by
  rw [decidesPresence_iff]
  exact and_iff_right pinsMostReturned

/-! ### Three services -/

section Three

def answering (name : String) (answer : Except IpfsError Bool) : IpfsClient where
  serviceName := name
  pinBytes _ := .ok "cid"
  contains _ := answer

def threeServices : List IpfsClient :=
  [answering "a" (.ok false), answering "b" (.ok false), answering "c" (.error (.service "timeout"))]

def majorityPinner : MultiPinner := ⟨threeServices, 2, Nat.two_pos, Nat.le_succ 2⟩

def anyPinner : MultiPinner := ⟨threeServices, 1, Nat.one_pos, Nat.succ_le_succ (Nat.zero_le 2)⟩

def plainLibrary : IpfsLibrary where
  rawBlockCid _ := .ok "raw"
  display _ := "failed"

/-- At most one of the services can have the CID, but that a majority lacks it is left undecided. -/
theorem contains_undecided : (∀ filled, Quorum.Completes (majorityPinner.answers "cid") filled →
      filled.count true < majorityPinner.quorum)
    ∧ majorityPinner.contains plainLibrary "cid"
      = .error (.containsQuorumUndecidable "cid" 2 [] ["a", "b"] [⟨"c", "failed"⟩]) :=
  ⟨Quorum.missed_iff.mpr (by decide), by decide +kernel⟩

/-- The service that failed could be the one that a quorum of one takes. -/
theorem decides_one : anyPinner.PinsMostReturned plainLibrary []
    ∧ anyPinner.DecidesPresence plainLibrary "cid" :=
  decides_iff.mpr (.inr (by decide +kernel))

end Three

end MultiPinner

end RailgunIndexer
