import RailgunIndexer.PinOwnership
import RailgunIndexer.Lib.Leases
import RailgunIndexer.Proof.ManifestChannel
import RailgunIndexer.Proof.PoiGraph

/-!
# No orphan pins

The count of the coordinator is the number of leases not settled, whatever the tasks and the shutdown
do in between, so an abort finds every lease settled. A lease is settled only where its pin failed or
is accounted for: a row references the CID, it was unpinned, or it is owed.
-/

namespace RailgunIndexer.PinOwnership

open Lib Lib.Leases Lib.Run

/-! ### Leases -/

variable {tables : PublicationTables}

def PinEvent.granted? : PinEvent → Option Nat
  | .granted lease => some lease
  | _ => none

def PinEvent.settled? : PinEvent → Option Nat
  | .settled lease _ => some lease
  | _ => none

def PinEvent.isStopped : PinEvent → Bool
  | .stopped => true
  | _ => false

def grantedLeases (events : List PinEvent) : List Nat := events.filterMap PinEvent.granted?

def settledLeases (events : List PinEvent) : List Nat := events.filterMap PinEvent.settled?

def PinState.held (s : PinState) : Option Nat :=
  s.gate.bind fun
    | .publisher _ phase => phase.lease?
    | .sweeper => none

@[simp]
theorem held_enter (s : PinState) (site : PinSite) (phase : SectionPhase) :
    (s.enter site phase).held = phase.lease? := rfl

theorem held_of_gate {s : PinState} {site : PinSite} {phase : SectionPhase}
    (hgate : s.gate = some (.publisher site phase)) : s.held = phase.lease? := by
  rw [PinState.held, hgate]
  rfl

section Ledger

variable {library : PoiLibrary} {s next : PinState} {event : PinEvent} {events : List PinEvent}
  {state : PinOwnershipState} {tables : PublicationTables}

inductive LedgerChange (s next : PinState) : PinEvent → Prop
  | keep {event : PinEvent} (hgranted : event.granted? = none) (hsettled : event.settled? = none)
      (hstopped : event.isStopped = false) (hownership : next.ownership = s.ownership)
      (hcount : next.granted = s.granted) (hheld : next.held = s.held ∨ next.held = none) :
      LedgerChange s next event
  | grant (haccepting : s.ownership.accepting = true)
      (hownership : next.ownership = ⟨true, s.ownership.active + 1⟩)
      (hcount : next.granted = s.granted + 1) (hheld : next.held = some s.granted) :
      LedgerChange s next (.granted s.granted)
  | settle {lease : Nat} {returned : Option String} (hlease : s.held = some lease)
      (hactive : s.ownership.active = next.ownership.active + 1)
      (haccepting : next.ownership.accepting = s.ownership.accepting)
      (hcount : next.granted = s.granted) (hheld : next.held = none) :
      LedgerChange s next (.settled lease returned)
  | stop (hactive : next.ownership.active = s.ownership.active)
      (haccepting : next.ownership.accepting = false) (hcount : next.granted = s.granted)
      (hheld : next.held = s.held) : LedgerChange s next .stopped

theorem tryAcquirePinOwnership_eq_some {granted : PinOwnershipState}
    (hlease : tryAcquirePinOwnership state = some granted) :
    state.accepting = true ∧ granted = ⟨true, state.active + 1⟩ := by
  unfold tryAcquirePinOwnership at hlease
  split_ifs at hlease with haccepting
  rw [← Option.some.inj hlease, haccepting]
  exact ⟨rfl, rfl⟩

theorem settlePinOwnership_eq_some {settled : PinOwnershipState}
    (hsettle : settlePinOwnership state = some settled) :
    state.active = settled.active + 1 ∧ settled.accepting = state.accepting := by
  unfold settlePinOwnership at hsettle
  split_ifs at hsettle with hzero
  rw [← Option.some.inj hsettle]
  exact ⟨(Nat.succ_pred hzero).symm, rfl⟩

theorem SectionStep.ledgerChange (hstep : SectionStep library s event next) :
    LedgerChange s next event := by
  cases hstep with
  | lock hgate _ | look hgate _ | reuse hgate | recordReused hgate _ _ | giveUp hgate _ =>
      exact .keep rfl rfl rfl rfl rfl (.inr rfl)
  | unlock hgate | drop hgate => exact .keep rfl rfl rfl rfl rfl (.inr rfl)
  | acquire hgate _ hlease =>
      obtain ⟨haccepting, rfl⟩ := tryAcquirePinOwnership_eq_some hlease
      exact .grant haccepting rfl rfl rfl
  | pinFailed hgate | pin hgate | stopped hgate _ _ | reconciled hgate _ | mismatched hgate _ _
  | referenced hgate _ | unreferenced hgate _ | unknown hgate | unpin hgate | unpinFailed hgate =>
      exact .keep rfl rfl rfl rfl rfl (.inl (held_of_gate hgate).symm)
  | @record _ _ _ acknowledged _ _ hgate _ _ =>
      refine .keep rfl rfl rfl rfl rfl (.inl ?_)
      rw [held_of_gate hgate, held_enter]
      cases acknowledged <;> rfl
  | @recordDebt _ _ _ acknowledged _ hgate _ =>
      refine .keep rfl rfl rfl rfl rfl ?_
      rw [held_of_gate hgate, held_enter]
      cases acknowledged
      · exact .inr rfl
      · exact .inl rfl
  | settle hgate hsettle =>
      obtain ⟨hactive, haccepting⟩ := settlePinOwnership_eq_some hsettle
      exact .settle (held_of_gate hgate) hactive haccepting rfl rfl

theorem UnlockedWrite.silent_or {now : Nat} {after : PublicationTables}
    (hwrite : UnlockedWrite now tables event after) :
    event = .silent ∨ ∃ cid, event = .abandoned cid := by
  cases hwrite with
  | abandonArtifact hok => exact .inr ⟨_, rfl⟩
  | activatePoi hok | invalidatePoi hok | abandonManifest hok | reservePoi hok | reserveIndexed hok =>
      exact .inl rfl

theorem CycleStep.ledgerChange (hstep : CycleStep s event next) : LedgerChange s next event := by
  cases hstep with
  | load _ _ | leave _ | activate _ _ | tick => exact .keep rfl rfl rfl rfl rfl (.inl rfl)
  | write hwrite =>
      obtain rfl | ⟨cid, rfl⟩ := hwrite.silent_or
      · exact .keep rfl rfl rfl rfl rfl (.inl rfl)
      · exact .keep rfl rfl rfl rfl rfl (.inl rfl)

theorem SweepStep.ledgerChange (hstep : SweepStep s event next) : LedgerChange s next event := by
  cases hstep with
  | lock _ | unlock _ => exact .keep rfl rfl rfl rfl rfl (.inr rfl)
  | deleteDebt _ | countAttempt _ | mark _ => exact .keep rfl rfl rfl rfl rfl (.inl rfl)

theorem DrainStep.ledgerChange (hstep : DrainStep s event next) : LedgerChange s next event := by
  cases hstep with
  | stop _ => exact .stop rfl rfl rfl rfl
  | request _ | joined _ | expired _ | woken _ _ | abort _ =>
      exact .keep rfl rfl rfl rfl rfl (.inl rfl)

theorem PinStep.ledgerChange (hstep : PinStep library s event next) : LedgerChange s next event := by
  cases hstep with
  | pinSection hstep | sweep hstep | cycle hstep | drain hstep => exact hstep.ledgerChange

/-- The coordinator agrees with the leases of the run. Once it is closed it stays closed, and a drain
that found no lease unsettled finds none later. -/
structure LedgerOk (events : List PinEvent) (s : PinState) : Prop where
  balanced : Balanced PinEvent.granted? PinEvent.settled? events s.granted s.ownership.active s.held
  closed : .stopped ∈ events → s.ownership.accepting = false
  stopped : s.drain ≠ .serving → s.ownership.accepting = false
  idle : s.drain = .idle ∨ s.drain = .aborted → s.ownership.active = 0

theorem ledgerOk_started (tables : PublicationTables) (clock : Nat) :
    LedgerOk [] (.started tables clock) where
  balanced := balanced_nil
  closed := by simp
  stopped hdrain := absurd rfl hdrain
  idle hdrain := by rcases hdrain with hdrain | hdrain <;> cases hdrain

theorem LedgerChange.balanced (hchange : LedgerChange s next event)
    (hok : Balanced PinEvent.granted? PinEvent.settled? events s.granted s.ownership.active s.held) :
    Balanced PinEvent.granted? PinEvent.settled? (events ++ [event]) next.granted
      next.ownership.active next.held := by
  cases hchange with
  | keep hgranted hsettled _ hownership hcount hheld =>
      rw [hcount, hownership]
      exact hok.other hgranted hsettled hheld
  | grant _ hownership hcount hheld =>
      rw [hcount, hownership, hheld]
      exact hok.grant rfl rfl
  | settle hlease hactive _ hcount hheld =>
      rw [hlease, hactive] at hok
      rw [hcount, hheld]
      exact hok.settle rfl rfl
  | stop hactive _ hcount hheld =>
      rw [hcount, hactive]
      exact hok.other rfl rfl (.inl hheld)

theorem LedgerChange.closed (hchange : LedgerChange s next event)
    (hclosed : s.ownership.accepting = false) :
    next.ownership.accepting = false ∧ (s.ownership.active = 0 → next.ownership.active = 0) := by
  cases hchange with
  | keep _ _ _ hownership _ _ =>
      rw [hownership]
      exact ⟨hclosed, id⟩
  | grant haccepting _ _ _ =>
      rw [haccepting] at hclosed
      cases hclosed
  | settle _ hactive haccepting _ _ => exact ⟨haccepting.trans hclosed, by omega⟩
  | stop hactive haccepting _ _ => exact ⟨haccepting, hactive.trans⟩

theorem LedgerChange.closed_of_stopped (hchange : LedgerChange s next .stopped) :
    next.ownership.accepting = false := by
  cases hchange with
  | keep _ _ hstopped _ _ _ => cases hstopped
  | stop _ haccepting _ _ => exact haccepting

theorem PinStep.drain_eq_or (hstep : PinStep library s event next) :
    next.drain = s.drain ∨ DrainStep s event next := by
  cases hstep with
  | pinSection hstep | sweep hstep | cycle hstep => cases hstep <;> exact .inl rfl
  | drain hstep => exact .inr hstep

theorem LedgerOk.step (hok : LedgerOk events s) (hstep : PinStep library s event next) :
    LedgerOk (events ++ [event]) next := by
  have hchange := hstep.ledgerChange
  refine ⟨hchange.balanced hok.balanced, ?_, ?_, ?_⟩
  · intro hmem
    rcases List.mem_append.mp hmem with hold | hnew
    · exact (hchange.closed (hok.closed hold)).1
    · rw [← List.mem_singleton.mp hnew] at hchange
      exact hchange.closed_of_stopped
  · intro hdrain
    rcases hstep.drain_eq_or with hsame | hstep
    · exact (hchange.closed (hok.stopped (hsame ▸ hdrain))).1
    · cases hstep with
      | stop _ => rfl
      | request hphase | joined hphase | expired hphase | woken hphase _ | abort hphase =>
          exact hok.stopped (by simp [hphase])
  · intro hdrain
    rcases hstep.drain_eq_or with hsame | hstep
    · rw [hsame] at hdrain
      refine (hchange.closed (hok.stopped ?_)).2 (hok.idle hdrain)
      rcases hdrain with hdrain | hdrain <;> simp [hdrain]
    · cases hstep with
      | stop _ | request _ | joined _ => rcases hdrain with hdrain | hdrain <;> cases hdrain
      | expired _ =>
          by_contra hactive
          rw [if_pos (Nat.pos_of_ne_zero hactive)] at hdrain
          rcases hdrain with hdrain | hdrain <;> cases hdrain
      | woken _ hactive => exact hactive
      | abort hidle => exact hok.idle (.inl hidle)

theorem ledgerOk_of_reaches {clock : Nat}
    (hrun : Reaches (PinStep library) (.started tables clock) events s) : LedgerOk events s :=
  hrun.invariant (ledgerOk_started tables clock) fun _ _ _ _ hok hstep => hok.step hstep

/-- **The count never runs out under a lease**, so settling one does not panic. -/
theorem exists_settlePinOwnership {clock lease : Nat}
    (hrun : Reaches (PinStep library) (.started tables clock) events s)
    (hheld : s.held = some lease) :
    ∃ ownership, settlePinOwnership s.ownership = some ownership := by
  have hbalanced := (ledgerOk_of_reaches hrun).balanced
  rw [hheld] at hbalanced
  have hactive := hbalanced.active_pos
  exact ⟨_, if_neg (by omega)⟩

end Ledger

/-! ### References -/

def NamedWith (mark : Option Nat → Prop) (cid : String) (tables : PublicationTables) : Prop :=
  (∃ row ∈ tables.indexedArtifacts, row.cid = cid ∧ mark row.unpinnedAt)
    ∨ (∃ row ∈ tables.indexedManifests, (row.cid = cid ∨ cid ∈ row.artifactCids)
      ∧ mark row.unpinnedAt)
    ∨ (∃ row ∈ tables.poiArtifacts, row.cid = cid ∧ mark row.unpinnedAt)
    ∨ ∃ row ∈ tables.poiManifests, (row.cid = cid ∨ cid ∈ row.artifactCids) ∧ mark row.unpinnedAt

def Referenced (cid : String) (tables : PublicationTables) : Prop := NamedWith (· = none) cid tables

def Named (cid : String) (tables : PublicationTables) : Prop := NamedWith (fun _ => True) cid tables

theorem Referenced.named {cid : String} (hreferenced : Referenced cid tables) :
    Named cid tables := by
  rcases hreferenced with ⟨row, hrow, hcid, -⟩ | ⟨row, hrow, hcid, -⟩ | ⟨row, hrow, hcid, -⟩
    | ⟨row, hrow, hcid, -⟩
  · exact .inl ⟨row, hrow, hcid, trivial⟩
  · exact .inr (.inl ⟨row, hrow, hcid, trivial⟩)
  · exact .inr (.inr (.inl ⟨row, hrow, hcid, trivial⟩))
  · exact .inr (.inr (.inr ⟨row, hrow, hcid, trivial⟩))

theorem referenced_iff {cid : String} :
    Audit.publicationCidIsReferenced cid tables = true ↔ Referenced cid tables := by
  simp only [Audit.publicationCidIsReferenced, Referenced, NamedWith, ArtifactRow.isLive,
    Bool.or_eq_true, List.any_eq_true, Bool.and_eq_true, decide_eq_true_eq, Option.isNone_iff_eq_none,
    List.contains_iff_mem, or_and_right, and_or_left, exists_or]
  grind

section Keeps

variable {β κ μ : Type} {tables after : PublicationTables} {cid : String} {marked : String → Prop}
  {now : Nat} {mark : Option Nat → Prop}
  {sequence : Nat}

def SameManifest (row later : ManifestRow β) : Prop :=
  later.cid = row.cid ∧ later.artifactCids = row.artifactCids ∧ later.unpinnedAt = row.unpinnedAt

def SameArtifact (marked : String → Prop) (row later : ArtifactRow κ μ) : Prop :=
  later.cid = row.cid ∧ (later.unpinnedAt = row.unpinnedAt ∨ marked row.cid)

/-- Every row is kept, and only rows of the given CIDs may be marked. Debts stay. -/
structure Keeps (marked : String → Prop) (tables after : PublicationTables) : Prop where
  indexedArtifacts_eq : after.indexedArtifacts = tables.indexedArtifacts
  indexedManifests : List.Forall₂ SameManifest tables.indexedManifests after.indexedManifests
  poiArtifacts : List.Forall₂ (SameArtifact marked) tables.poiArtifacts after.poiArtifacts
  poiManifests : List.Forall₂ SameManifest tables.poiManifests after.poiManifests
  pinCleanupDebt_eq : after.pinCleanupDebt = tables.pinCleanupDebt

theorem SameManifest.refl (row : ManifestRow β) : SameManifest row row :=
  ⟨rfl, rfl, rfl⟩

theorem SameManifest.trans {row later last : ManifestRow β} (hrow : SameManifest row later)
    (hlater : SameManifest later last) : SameManifest row last :=
  ⟨hlater.1.trans hrow.1, hlater.2.1.trans hrow.2.1, hlater.2.2.trans hrow.2.2⟩

theorem forall₂_sameManifest_refl (rows : List (ManifestRow β)) :
    List.Forall₂ SameManifest rows rows :=
  List.forall₂_same.mpr fun row _ => .refl row

theorem forall₂_sameArtifact_refl (rows : List (ArtifactRow κ μ)) :
    List.Forall₂ (SameArtifact marked) rows rows :=
  List.forall₂_same.mpr fun _ _ => ⟨rfl, .inl rfl⟩

theorem forall₂_sameManifest_activated {replaced : ManifestRow β → Bool}
    (rows : List (ManifestRow β)) :
    List.Forall₂ SameManifest rows
      (Audit.supersede now replaced (Audit.activate now cid sequence rows)) := by
  refine Table.forall₂_trans (fun _ _ _ => SameManifest.trans)
    (Table.forall₂_update SameManifest.refl ?_) (Table.forall₂_update SameManifest.refl ?_)
  · exact fun row _ _ => ⟨rfl, rfl, rfl⟩
  · exact fun row _ _ => ⟨rfl, rfl, rfl⟩

theorem exists_named_of_forall₂ {rows later : List (ManifestRow β)}
    (hrows : List.Forall₂ SameManifest rows later)
    (hnamed : ∃ row ∈ rows, (row.cid = cid ∨ cid ∈ row.artifactCids) ∧ mark row.unpinnedAt) :
    ∃ row ∈ later, (row.cid = cid ∨ cid ∈ row.artifactCids) ∧ mark row.unpinnedAt := by
  obtain ⟨row, hrow, hnames, hmark⟩ := hnamed
  obtain ⟨other, hother, hcid, hcids, hunpinned⟩ := Fallible.exists_of_forall₂_left hrows hrow
  refine ⟨other, hother, ?_, ?_⟩
  · rwa [hcid, hcids]
  · rwa [hunpinned]

theorem Keeps.namedWith (hkeeps : Keeps marked tables after)
    (hmarked : marked cid → ∀ time, mark time) (hnamed : NamedWith mark cid tables) :
    NamedWith mark cid after := by
  rcases hnamed with hindexed | hindexed | hpoi | hpoi
  · refine .inl ?_
    rwa [hkeeps.indexedArtifacts_eq]
  · exact .inr (.inl (exists_named_of_forall₂ hkeeps.indexedManifests hindexed))
  · obtain ⟨row, hrow, rfl, hmark⟩ := hpoi
    obtain ⟨other, hother, hcid, hsame⟩ :=
      Fallible.exists_of_forall₂_left hkeeps.poiArtifacts hrow
    refine .inr (.inr (.inl ⟨other, hother, hcid, ?_⟩))
    rcases hsame with hunpinned | hcovered
    · rwa [hunpinned]
    · exact hmarked hcovered _
  · exact .inr (.inr (.inr (exists_named_of_forall₂ hkeeps.poiManifests hpoi)))

theorem Keeps.mono {marked others : String → Prop} (hkeeps : Keeps marked tables after)
    (himp : ∀ cid, marked cid → others cid) : Keeps others tables after :=
  ⟨hkeeps.indexedArtifacts_eq, hkeeps.indexedManifests,
    hkeeps.poiArtifacts.imp fun _ _ hrow => ⟨hrow.1, hrow.2.imp_right (himp _)⟩,
    hkeeps.poiManifests, hkeeps.pinCleanupDebt_eq⟩

theorem keeps_invalidated
    (hok : Audit.invalidatePendingPoiManifestReconciliation now cid sequence tables = .ok after) :
    Keeps marked tables after := by
  obtain ⟨pending, -, -, -, rfl⟩ := Audit.invalidatePendingPoiManifestReconciliation_eq_ok hok
  refine ⟨rfl, forall₂_sameManifest_refl _, forall₂_sameArtifact_refl _, ?_, rfl⟩
  exact Table.forall₂_update SameManifest.refl fun row _ _ => ⟨rfl, rfl, rfl⟩

theorem keeps_abandoned {unavailable : Option String}
    (hok : Audit.abandonPendingPoiV4ManifestReconciliation now cid sequence unavailable tables =
      .ok after) :
    Keeps (unavailable = some ·) tables after ∧ after.indexedManifests = tables.indexedManifests := by
  obtain ⟨invalidated, hinvalidated, rfl⟩ :=
    Audit.abandonPendingPoiV4ManifestReconciliation_eq_ok hok
  obtain ⟨pending, -, -, -, rfl⟩ :=
    Audit.invalidatePendingPoiManifestReconciliation_eq_ok hinvalidated
  refine ⟨⟨rfl, forall₂_sameManifest_refl _, ?_, ?_, rfl⟩, rfl⟩
  · cases unavailable with
    | none => exact forall₂_sameArtifact_refl _
    | some unavailable =>
        refine Table.forall₂_update (fun row => ⟨rfl, .inl rfl⟩) fun row _ hrow => ⟨rfl, .inr ?_⟩
        simp only [Bool.and_eq_true, decide_eq_true_eq] at hrow
        rw [hrow.1.1]
  · exact Table.forall₂_update SameManifest.refl fun row _ _ => ⟨rfl, rfl, rfl⟩

theorem UnlockedWrite.keeps {event : PinEvent} (hwrite : UnlockedWrite now tables event after) :
    Keeps (fun cid => event = .abandoned cid) tables after
      ∧ after.indexedManifests = tables.indexedManifests := by
  cases hwrite with
  | activatePoi hok =>
      obtain ⟨-, rfl⟩ := Audit.recordPoiArtifactManifestIpnsPublication_eq_ok hok
      exact ⟨⟨rfl, forall₂_sameManifest_refl _, forall₂_sameArtifact_refl _,
        forall₂_sameManifest_activated _, rfl⟩, rfl⟩
  | invalidatePoi hok =>
      refine ⟨keeps_invalidated hok, ?_⟩
      obtain ⟨pending, -, -, -, rfl⟩ := Audit.invalidatePendingPoiManifestReconciliation_eq_ok hok
      rfl
  | abandonManifest hok =>
      have hkeeps := keeps_abandoned hok
      refine ⟨?_, hkeeps.2⟩
      exact hkeeps.1.mono fun cid hcid => by cases hcid
  | abandonArtifact hok =>
      have hkeeps := keeps_abandoned hok
      refine ⟨?_, hkeeps.2⟩
      exact hkeeps.1.mono fun cid hcid => by rw [Option.some.inj hcid]
  | reservePoi hok =>
      obtain ⟨-, rfl⟩ := Audit.reservePoiPublicationSequence_eq_ok hok
      exact ⟨⟨rfl, forall₂_sameManifest_refl _, forall₂_sameArtifact_refl _,
        forall₂_sameManifest_refl _, rfl⟩, rfl⟩
  | reserveIndexed hok =>
      obtain ⟨-, rfl⟩ := Audit.recordChainIndexedIpnsSequence_eq_ok hok
      exact ⟨⟨rfl, forall₂_sameManifest_refl _, forall₂_sameArtifact_refl _,
        forall₂_sameManifest_refl _, rfl⟩, rfl⟩

end Keeps

/-! ### What is recorded -/

section Record

variable {library : PoiLibrary} {now : Nat} {cid : String} {tables after : PublicationTables}

theorem exists_live_upsertArtifact {κ μ : Type} [DecidableEq κ] (key : κ) (metadata : μ)
    (kept : μ → μ) (rows : List (ArtifactRow κ μ)) :
    ∃ row ∈ Audit.upsertArtifact now key cid metadata kept rows, row.cid = cid
      ∧ row.unpinnedAt = none := by
  unfold Audit.upsertArtifact
  split_ifs with hany
  · obtain ⟨row, hrow, hmatch⟩ := List.any_eq_true.mp hany
    refine ⟨_, Table.mem_update.mpr ⟨row, hrow, if_pos hmatch⟩, ?_, rfl⟩
    simp only [Bool.and_eq_true, decide_eq_true_eq] at hmatch
    exact hmatch.2
  · exact ⟨_, List.mem_append_right _ (List.mem_singleton_self _), rfl, rfl⟩

theorem referenced_of_record {site : PinSite}
    (hrecord : site.record library now cid tables = some (.ok after)) :
    Referenced cid after ∧ ∀ found ∈ tables.indexedManifests, found ∈ after.indexedManifests := by
  unfold PinSite.record at hrecord
  split at hrecord
  · have hafter := Audit.recordPoiArtifactPin_eq_ok (Option.some.inj hrecord)
    subst hafter
    exact ⟨.inr (.inr (.inl (exists_live_upsertArtifact _ _ _ _))), fun _ => id⟩
  · obtain ⟨-, rfl⟩ := Audit.recordPoiArtifactManifestPin_eq_ok (Option.some.inj hrecord)
    refine ⟨.inr (.inr (.inr ?_)), fun _ => id⟩
    exact ⟨_, List.mem_append_right _ (List.mem_singleton_self _), .inl rfl, rfl⟩
  · have hafter := Audit.recordIndexedArtifactPin_eq_ok (Option.some.inj hrecord)
    subst hafter
    exact ⟨.inl (exists_live_upsertArtifact _ _ (fun _ => _) _), fun _ => id⟩
  · obtain ⟨-, rfl⟩ := Audit.recordIndexedManifestPin_eq_ok (Option.some.inj hrecord)
    refine ⟨.inr (.inl ?_), fun found => List.mem_append_left _⟩
    exact ⟨_, List.mem_append_right _ (List.mem_singleton_self _), .inl rfl, rfl⟩
  · cases hrecord

theorem exists_debt_recordPinCleanupDebt :
    (∃ debt ∈ (Audit.recordPinCleanupDebt cid tables).pinCleanupDebt, debt.cid = cid)
      ∧ (Audit.recordPinCleanupDebt cid tables).indexedManifests = tables.indexedManifests := by
  unfold Audit.recordPinCleanupDebt
  split_ifs with hany
  · obtain ⟨debt, hdebt, hcid⟩ := List.any_eq_true.mp hany
    exact ⟨⟨debt, hdebt, of_decide_eq_true hcid⟩, rfl⟩
  · exact ⟨⟨_, List.mem_append_right _ (List.mem_singleton_self _), rfl⟩, rfl⟩

end Record

/-! ### Sections -/

def AbandonedSince (events : List PinEvent) (lease : Nat) (cid : String) : Prop :=
  ∃ before after, events = before ++ .pinned lease cid :: after ∧ .abandoned cid ∈ after

/-- The pin of a lease is referenced by a committed row, or was until the POI publisher abandoned the
CID as unavailable; or it was unpinned; or it is owed. -/
def Accounted (events : List PinEvent) (tables : PublicationTables) (lease : Nat) (cid : String) :
    Prop :=
  Referenced cid tables ∨ (Named cid tables ∧ AbandonedSince events lease cid)
    ∨ .unpinned lease cid ∈ events ∨ ∃ debt ∈ tables.pinCleanupDebt, debt.cid = cid

def PhaseOk (events : List PinEvent) (tables : PublicationTables) : SectionPhase → Prop
  | .pinned lease cid | .cleaning lease cid | .unpinning lease cid | .owing lease cid =>
      .pinned lease cid ∈ events
  | .settling lease none => .pinFailed lease ∈ events
  | .settling lease (some cid) => .pinned lease cid ∈ events ∧ Accounted events tables lease cid
  | .deciding | .looked _ | .reusing _ | .pinning _ | .finished => True

section Sections

variable {library : PoiLibrary} {s next : PinState} {event : PinEvent} {events : List PinEvent}
  {tables after : PublicationTables} {cid : String} {lease : Nat} {phase old : SectionPhase}

theorem AbandonedSince.snoc (hsince : AbandonedSince events lease cid) :
    AbandonedSince (events ++ [event]) lease cid := by
  obtain ⟨before, later, rfl, hmem⟩ := hsince
  exact ⟨before, later ++ [event], by simp, List.mem_append_left _ hmem⟩

theorem Accounted.keep (haccounted : Accounted events tables lease cid)
    (hpinned : .pinned lease cid ∈ events)
    (hkeeps : Keeps (fun cid => event = .abandoned cid) tables after) :
    Accounted (events ++ [event]) after lease cid := by
  rcases haccounted with hreferenced | ⟨hnamed, hsince⟩ | hunpinned | hdebt
  · by_cases habandoned : event = .abandoned cid
    · refine .inr (.inl ⟨?_, ?_⟩)
      · exact hkeeps.namedWith (fun _ _ => trivial) hreferenced.named
      · obtain ⟨before, later, rfl⟩ := List.append_of_mem hpinned
        refine ⟨before, later ++ [event], by simp, ?_⟩
        rw [habandoned]
        exact List.mem_append_right _ (List.mem_singleton_self _)
    · exact .inl (hkeeps.namedWith (fun hmarked => absurd hmarked habandoned) hreferenced)
  · exact .inr (.inl ⟨hkeeps.namedWith (fun _ _ => trivial) hnamed, hsince.snoc⟩)
  · exact .inr (.inr (.inl (List.mem_append_left _ hunpinned)))
  · refine .inr (.inr (.inr ?_))
    rwa [hkeeps.pinCleanupDebt_eq]

theorem PhaseOk.keep (hphase : PhaseOk events tables phase)
    (hkeeps : Keeps (fun cid => event = .abandoned cid) tables after) :
    PhaseOk (events ++ [event]) after phase := by
  cases phase with
  | pinned lease cid | cleaning lease cid | unpinning lease cid | owing lease cid =>
      exact List.mem_append_left _ hphase
  | settling lease returned =>
      cases returned with
      | none => exact List.mem_append_left _ hphase
      | some cid => exact ⟨List.mem_append_left _ hphase.1, hphase.2.keep hphase.1 hkeeps⟩
  | deciding | looked found | reusing cid | pinning lease | finished => trivial

/-- A section knows its pin, and a reconciliation holds on to a manifest that is still pending. -/
structure SectionsOk (events : List PinEvent) (s : PinState) : Prop where
  phase : ∀ site phase, s.gate = some (.publisher site phase) → PhaseOk events s.tables phase
  pending : ∀ row, s.reconciling = some row →
    ∃ found ∈ s.tables.indexedManifests, found.cid = row.cid ∧ found.isPending = true
  site : ∀ site phase pending, s.gate = some (.publisher site phase) →
    site.pending? = some pending → s.reconciling = some pending

theorem sectionsOk_started (tables : PublicationTables) (clock : Nat) :
    SectionsOk [] (.started tables clock) where
  phase := by simp [PinState.started]
  pending := by simp [PinState.started]
  site := by simp [PinState.started]

theorem SectionsOk.enter {site : PinSite} {ownership : PinOwnershipState} {granted : Nat}
    (hok : SectionsOk events s) (hgate : s.gate = some (.publisher site old))
    (hmanifests : ∀ found ∈ s.tables.indexedManifests, found ∈ after.indexedManifests)
    (hphase : PhaseOk (events ++ [event]) after phase) :
    SectionsOk (events ++ [event])
      ({ s with tables := after, ownership, granted }.enter site phase) := by
  constructor
  · intro found entered hfound
    cases hfound
    exact hphase
  · intro row hrow
    obtain ⟨found, hfound, hpending⟩ := hok.pending row hrow
    exact ⟨found, hmanifests found hfound, hpending⟩
  · intro found entered pending hfound hpending
    cases hfound
    exact hok.site site old pending hgate hpending

theorem SectionsOk.leave {gate : Option GateHolder} (hok : SectionsOk events s)
    (hgate : ∀ site phase, gate ≠ some (.publisher site phase)) :
    SectionsOk (events ++ [event]) { s with gate } where
  phase site phase hfound := absurd hfound (hgate site phase)
  pending := hok.pending
  site site phase _ hfound := absurd hfound (hgate site phase)

theorem SectionsOk.move {site : PinSite} (hok : SectionsOk events s)
    (hgate : s.gate = some (.publisher site old))
    (hphase : PhaseOk (events ++ [event]) s.tables phase) :
    SectionsOk (events ++ [event]) (s.enter site phase) :=
  hok.enter hgate (fun _ => id) hphase

theorem mem_snoc_self : event ∈ events ++ [event] :=
  List.mem_append_right _ (List.mem_singleton_self _)

theorem SectionStep.sectionsOk (hok : SectionsOk events s) (hstep : SectionStep library s event next) :
    SectionsOk (events ++ [event]) next := by
  cases hstep with
  | lock hgate hpending =>
      refine ⟨?_, hok.pending, ?_⟩
      · intro found entered hfound
        cases hfound
        trivial
      · intro found entered pending hfound hsite
        cases hfound
        exact hpending pending hsite
  | look hgate _ | reuse hgate | giveUp hgate _ => exact hok.move hgate trivial
  | recordReused hgate hrecord hcommits =>
      refine hok.enter hgate ?_ trivial
      cases hcommits with
      | acknowledged hok | unacknowledged hok => exact (referenced_of_record (hok ▸ hrecord)).2
      | rolledBack => exact fun _ => id
  | acquire hgate _ _ => exact hok.enter hgate (fun _ => id) trivial
  | pinFailed hgate => exact hok.move hgate mem_snoc_self
  | pin hgate => exact hok.move hgate mem_snoc_self
  | stopped hgate _ _ | mismatched hgate _ _ | unreferenced hgate _ | unknown hgate
  | unpinFailed hgate => exact hok.move hgate (List.mem_append_left _ (hok.phase _ _ hgate))
  | record hgate hrecord hcommits =>
      have hpinned := List.mem_append_left [PinEvent.silent] (hok.phase _ _ hgate)
      cases hcommits with
      | acknowledged hresult =>
          obtain ⟨hreferenced, hmanifests⟩ := referenced_of_record (hresult ▸ hrecord)
          exact hok.enter hgate hmanifests ⟨hpinned, .inl hreferenced⟩
      | unacknowledged hresult =>
          exact hok.enter hgate (referenced_of_record (hresult ▸ hrecord)).2 hpinned
      | rolledBack => exact hok.enter hgate (fun _ => id) hpinned
  | reconciled hgate hsite =>
      obtain ⟨found, hfound, hcid, hpending⟩ := hok.pending _ (hok.site _ _ _ hgate hsite)
      refine hok.move hgate ⟨List.mem_append_left _ (hok.phase _ _ hgate), .inl (.inr (.inl ?_))⟩
      exact ⟨found, hfound, .inl hcid, (ManifestRow.isPending_iff.mp hpending).2.2.1⟩
  | referenced hgate hreferenced =>
      exact hok.move hgate ⟨List.mem_append_left _ (hok.phase _ _ hgate),
        .inl (referenced_iff.mp hreferenced)⟩
  | unpin hgate =>
      exact hok.move hgate ⟨List.mem_append_left _ (hok.phase _ _ hgate),
        .inr (.inr (.inl mem_snoc_self))⟩
  | recordDebt hgate hcommits =>
      have hpinned := List.mem_append_left [PinEvent.silent] (hok.phase _ _ hgate)
      obtain ⟨hdebt, hmanifests⟩ := exists_debt_recordPinCleanupDebt
      cases hcommits with
      | acknowledged hresult =>
          cases hresult
          exact hok.enter hgate (by simp [hmanifests]) ⟨hpinned, .inr (.inr (.inr hdebt))⟩
      | unacknowledged hresult =>
          cases hresult
          exact hok.enter hgate (by simp [hmanifests]) trivial
      | rolledBack => exact hok.enter hgate (fun _ => id) trivial
  | settle hgate _ => exact hok.enter hgate (fun _ => id) trivial
  | unlock hgate | drop hgate => exact hok.leave (by simp)

theorem Keeps.refl {marked : String → Prop} (tables : PublicationTables) :
    Keeps marked tables tables :=
  ⟨rfl, forall₂_sameManifest_refl _, forall₂_sameArtifact_refl _, forall₂_sameManifest_refl _, rfl⟩

theorem SectionsOk.phase_keep (hok : SectionsOk events s)
    (hkeeps : Keeps (fun cid => event = .abandoned cid) s.tables after) :
    ∀ site phase, s.gate = some (.publisher site phase) → PhaseOk (events ++ [event]) after phase :=
  fun site phase hgate => (hok.phase site phase hgate).keep hkeeps

theorem site_of_outside {reconciling : Option IndexedManifestRow} (houtside : s.OutsideReconciliation) :
    ∀ site phase pending, s.gate = some (.publisher site phase) → site.pending? = some pending →
      reconciling = some pending := by
  intro site phase pending hgate hpending
  rw [houtside site phase hgate] at hpending
  cases hpending

theorem CycleStep.sectionsOk (hok : SectionsOk events s) (hstep : CycleStep s event next) :
    SectionsOk (events ++ [event]) next := by
  cases hstep with
  | load hnone hpending =>
      refine ⟨hok.phase_keep (.refl _), ?_, ?_⟩
      · intro row hrow
        cases hrow
        obtain ⟨hmem, hpending⟩ := Audit.pendingManifest_eq_some hpending
        exact ⟨_, hmem, rfl, hpending⟩
      · intro site phase pending hgate hsite
        have hsome := hok.site site phase pending hgate hsite
        rw [hnone] at hsome
        cases hsome
  | leave houtside => exact ⟨hok.phase_keep (.refl _), by simp, site_of_outside houtside⟩
  | activate houtside hactivated =>
      obtain ⟨-, rfl⟩ := Audit.recordIndexedManifestIpnsPublication_eq_ok hactivated
      refine ⟨hok.phase_keep ⟨rfl, ?_, ?_, ?_, rfl⟩, by simp, site_of_outside houtside⟩
      · exact forall₂_sameManifest_activated _
      · exact forall₂_sameArtifact_refl _
      · exact forall₂_sameManifest_refl _
  | write hwrite =>
      obtain ⟨hkeeps, hmanifests⟩ := hwrite.keeps
      refine ⟨hok.phase_keep hkeeps, ?_, hok.site⟩
      intro row hrow
      rw [hmanifests]
      exact hok.pending row hrow
  | tick => exact ⟨hok.phase_keep (.refl _), hok.pending, hok.site⟩

theorem SweepStep.sectionsOk (hok : SectionsOk events s) (hstep : SweepStep s event next) :
    SectionsOk (events ++ [event]) next := by
  cases hstep with
  | lock hgate | unlock hgate => exact hok.leave (by simp)
  | deleteDebt hgate | countAttempt hgate =>
      exact ⟨by simp [hgate], hok.pending, by simp [hgate]⟩
  | mark hgate =>
      refine ⟨by simp [hgate], ?_, by simp [hgate]⟩
      intro row hrow
      obtain ⟨found, hfound, hcid, hpending⟩ := hok.pending row hrow
      exact ⟨found, mem_markUnpinned hfound hpending, hcid, hpending⟩

theorem DrainStep.sectionsOk (hok : SectionsOk events s) (hstep : DrainStep s event next) :
    SectionsOk (events ++ [event]) next := by
  cases hstep <;> exact ⟨hok.phase_keep (.refl _), hok.pending, hok.site⟩

theorem SectionsOk.step (hok : SectionsOk events s) (hstep : PinStep library s event next) :
    SectionsOk (events ++ [event]) next := by
  cases hstep with
  | pinSection hstep | sweep hstep | cycle hstep | drain hstep => exact hstep.sectionsOk hok

theorem sectionsOk_of_reaches {clock : Nat}
    (hrun : Reaches (PinStep library) (.started tables clock) events s) : SectionsOk events s :=
  hrun.invariant (sectionsOk_started tables clock) fun _ _ _ _ hok hstep => hok.step hstep

theorem PinStep.gate_of_settled {returned : Option String}
    (hstep : PinStep library s (.settled lease returned) next) :
    ∃ site, s.gate = some (.publisher site (.settling lease returned)) := by
  cases hstep with
  | pinSection hstep =>
      cases hstep with
      | settle hgate _ => exact ⟨_, hgate⟩
  | sweep hstep | drain hstep => cases hstep
  | cycle hstep =>
      cases hstep with
      | write hwrite => rcases hwrite.silent_or with hevent | ⟨cid, hevent⟩ <;> cases hevent

theorem PinStep.drain_of_aborted (hstep : PinStep library s .aborted next) : s.drain = .idle := by
  cases hstep with
  | pinSection hstep | sweep hstep => cases hstep
  | cycle hstep =>
      cases hstep with
      | write hwrite => rcases hwrite.silent_or with hevent | ⟨cid, hevent⟩ <;> cases hevent
  | drain hstep =>
      cases hstep with
      | abort hdrain => exact hdrain

theorem LedgerChange.accepting_of_granted (hchange : LedgerChange s next (.granted lease)) :
    s.ownership.accepting = true := by
  cases hchange with
  | keep hgranted _ _ _ _ _ => cases hgranted
  | grant haccepting _ _ _ => exact haccepting

end Sections

/-! ### No orphan pins -/

def chunkSite : PinSite :=
  .reuseOrPinIndexedArtifact ⟨.chunk, .commitments, ⟨1, 7⟩, ⟨.block, 0, 9⟩⟩ ⟨0, 0, 1⟩

def chunkState (ownership : PinOwnershipState) (granted : Nat) (phase : SectionPhase)
    (debts : List PinCleanupDebt) (drain : DrainPhase) : PinState where
  tables := { PublicationTables.empty with pinCleanupDebt := debts }
  clock := 0
  ownership := ownership
  granted := granted
  gate := some (.publisher chunkSite phase)
  reconciling := none
  shutdownRequested := false
  drain := drain

/-- The section goes on after the shutdown has closed the coordinator. -/
def closingState (phase : SectionPhase) : PinState := chunkState ⟨false, 1⟩ 1 phase [] .stopped

def owedState : PinState :=
  chunkState ⟨false, 1⟩ 1 (.settling 0 (some "chunk")) [⟨"chunk", 0⟩] .stopped

theorem reaches_owed :
    Reaches (PinStep smallPoiLibrary) (.started .empty 0)
      [.silent, .silent, .granted 0, .stopped, .pinned 0 "chunk", .silent, .silent, .silent, .silent]
      owedState := by
  have hlock : PinStep smallPoiLibrary (.started .empty 0) .silent
      (chunkState ⟨true, 0⟩ 0 .deciding [] .serving) :=
    .pinSection (.lock rfl (by simp [chunkSite, PinSite.pending?]))
  have hlook : PinStep smallPoiLibrary (chunkState ⟨true, 0⟩ 0 .deciding [] .serving) .silent
      (chunkState ⟨true, 0⟩ 0 (.looked none) [] .serving) :=
    .pinSection (.look rfl (by rfl))
  have hacquire : PinStep smallPoiLibrary (chunkState ⟨true, 0⟩ 0 (.looked none) [] .serving)
      (.granted 0) (chunkState ⟨true, 1⟩ 1 (.pinning 0) [] .serving) :=
    .pinSection (.acquire rfl rfl (by rfl))
  have hstop : PinStep smallPoiLibrary (chunkState ⟨true, 1⟩ 1 (.pinning 0) [] .serving) .stopped
      (closingState (.pinning 0)) :=
    .drain (.stop rfl)
  have hpin : PinStep smallPoiLibrary (closingState (.pinning 0)) (.pinned 0 "chunk")
      (closingState (.pinned 0 "chunk")) :=
    .pinSection (.pin rfl)
  have haudit : PinStep smallPoiLibrary (closingState (.pinned 0 "chunk")) .silent
      (closingState (.cleaning 0 "chunk")) :=
    .pinSection (.record rfl rfl .rolledBack)
  have hunreferenced : PinStep smallPoiLibrary (closingState (.cleaning 0 "chunk")) .silent
      (closingState (.unpinning 0 "chunk")) :=
    .pinSection (.unreferenced rfl (by rfl))
  have hunpin : PinStep smallPoiLibrary (closingState (.unpinning 0 "chunk")) .silent
      (closingState (.owing 0 "chunk")) :=
    .pinSection (.unpinFailed rfl)
  have hdebt : PinStep smallPoiLibrary (closingState (.owing 0 "chunk")) .silent owedState :=
    .pinSection (.recordDebt rfl (.acknowledged (by rfl)))
  exact ((((((((Reaches.single hlock).tail hlook).tail hacquire).tail hstop).tail hpin).tail
    haudit).tail hunreferenced).tail hunpin).tail hdebt

theorem exists_settlePinOwnership_owed :
    ∃ ownership, settlePinOwnership ⟨false, 1⟩ = some ownership :=
  exists_settlePinOwnership reaches_owed rfl

end RailgunIndexer.PinOwnership
