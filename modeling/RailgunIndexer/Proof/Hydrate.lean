import RailgunIndexer.Hydrate
import RailgunIndexer.Lib.Fallible

/-!
# The rows of a hydrated batch

Every row of a batch carries one decoded transaction of one outer transaction, unchanged but for its
number. The caches change which requests are made, never which calldata is read.
-/

namespace RailgunIndexer

open Lib Fallible

variable {timestamp : Nat} {railgunContract : Address}

/-! ### Rows carry transactions -/

structure RowCarries (source : IndexedLogSource) (transaction : DecodedRailgunTransaction)
    (row : IndexedPublicTransaction) : Prop where
  source_eq : row.source = source
  nullifiers_eq : row.nullifiers = transaction.nullifiers
  commitments_eq : row.commitments = transaction.commitments
  boundParamsHash_eq : row.boundParamsHash = transaction.boundParamsHash
  hasUnshield_eq : row.hasUnshield = transaction.hasUnshield
  unshieldPreimage_eq : row.unshieldPreimage = transaction.unshieldPreimage
  utxoTreeIn_eq : row.utxoTreeIn = transaction.utxoTreeIn
  railgunTxid_eq : row.railgunTxid = transaction.railgunTxid

theorem matchTransaction_rows {summary : TransactOutputSummary}
    {emittedOutputs : List EmittedOutputCommitment} {state after : OutputState}
    {transaction : DecodedRailgunTransaction} {transactionIndex : Nat}
    {found : OutputMatch × Nat × Nat}
    (hok : matchTransaction summary emittedOutputs state transaction transactionIndex
      = .ok (found, after)) : after.rows = state.rows := by
  have hsequential : ∀ {result : (OutputMatch × Nat × Nat) × OutputState},
      (matchedOutputStartGlobal summary emittedOutputs state.emittedIndex transaction
          transactionIndex >>= fun found =>
        pure ((found.1, summary.firstLogIndex, summary.lastLogIndex),
          { state with emittedIndex := found.2 })) = Except.ok result →
        result.2.rows = state.rows := by
    intro result hresult
    obtain ⟨_, -, heq⟩ := bind_eq_ok.mp hresult
    cases heq
    rfl
  unfold matchTransaction at hok
  cases hkind : transaction.callKind with
  | legacyTransact =>
      simp only [hkind] at hok
      obtain ⟨group, -, hok⟩ := bind_eq_ok.mp hok
      cases group with
      | none => exact hsequential hok
      | some group =>
          obtain ⟨_, -, heq⟩ := bind_eq_ok.mp hok
          cases heq
          rfl
  | relay | legacyRelay =>
      simp only [hkind] at hok
      split at hok
      · obtain ⟨_, -, hok⟩ := bind_eq_ok.mp hok
        split at hok
        · cases hok
        · cases hok
          rfl
      · exact hsequential hok
  | transact | execute | actionLogs =>
      simp only [hkind] at hok
      exact hsequential hok

theorem outputStep_eq_ok {summary : TransactOutputSummary}
    {emittedOutputs : List EmittedOutputCommitment} {state after : OutputState}
    {item : DecodedRailgunTransaction × Nat}
    (hok : outputStep summary timestamp emittedOutputs state item = .ok after) :
    ∃ row, after.rows = state.rows ++ [row] ∧ RowCarries summary.source item.1 row := by
  obtain ⟨⟨⟨found, firstLogIndex, lastLogIndex⟩, middle⟩, hmatch, hnext⟩ := bind_eq_ok.mp hok
  obtain ⟨position, -, heq⟩ := bind_eq_ok.mp hnext
  cases heq
  refine ⟨_, congrArg (· ++ _) (matchTransaction_rows hmatch), ?_⟩
  constructor <;> rfl

theorem publicTransactionsFromDecoded_eq_ok {summary : TransactOutputSummary}
    {transactions : List DecodedRailgunTransaction} {rows : List IndexedPublicTransaction}
    (hok : publicTransactionsFromDecoded summary timestamp transactions = .ok rows) :
    List.Forall₂ (RowCarries summary.source) transactions rows := by
  obtain ⟨state, hrun, hnext⟩ := bind_eq_ok.mp hok
  obtain ⟨results, hrows, hcarries⟩ := foldlM_forall₂ (fun state => state.rows) hrun
    fun _ _ _ _ hstep => outputStep_eq_ok hstep
  split at hnext
  · cases hnext
  · cases hnext
    rw [show state.rows = results from hrows]
    have hitems := (List.forall₂_map_left_iff (f := Prod.fst)).mpr hcarries
    rwa [List.zipIdx_map_fst] at hitems

theorem publicTransactionsFromCalldataOrTrace_sources {contracts : Contracts}
    {debugTrace : Option TraceFrame}
    {flatTrace : Option (List FlatTraceFrame)} {summary : TransactOutputSummary}
    {calldata : Bytes} {rows : List IndexedPublicTransaction}
    (hok : publicTransactionsFromCalldataOrTrace contracts railgunContract debugTrace flatTrace
      summary timestamp calldata = .ok rows) : ∀ row ∈ rows, row.source = summary.source := by
  have hdecoded : ∀ {transactions : List DecodedRailgunTransaction},
      publicTransactionsFromDecoded summary timestamp transactions = .ok rows →
        ∀ row ∈ rows, row.source = summary.source := by
    intro transactions hrows row hrow
    obtain ⟨transaction, -, hcarries⟩ :=
      exists_of_forall₂_right (publicTransactionsFromDecoded_eq_ok hrows) hrow
    exact hcarries.source_eq
  have htrace : publicTransactionsFromTrace contracts railgunContract debugTrace flatTrace summary
      timestamp = .ok rows → ∀ row ∈ rows, row.source = summary.source := by
    intro hrows
    obtain ⟨_, -, hrows⟩ := bind_eq_ok.mp hrows
    exact hdecoded hrows
  unfold publicTransactionsFromCalldataOrTrace at hok
  split at hok
  · exact htrace hok
  · rename_i hcalldata
    cases hok
    obtain ⟨found, -, hfound⟩ := bind_eq_ok.mp hcalldata
    cases found with
    | none =>
        cases hfound
        simp
    | some transactions => exact hdecoded hfound
  · exact htrace hok
  · cases hok

/-! ### Rows of one outer transaction -/

def frameTransactionsOf (frames : List ActionCallTransactions) : List DecodedRailgunTransaction :=
  (frames.flatMap Prod.snd).map Prod.snd

def CarriedBy (source : IndexedLogSource) (transactions : List DecodedRailgunTransaction)
    (rows : List IndexedPublicTransaction) : Prop :=
  (∀ row ∈ rows, ∃ transaction ∈ transactions, RowCarries source transaction row)
    ∧ ∀ transaction ∈ transactions, ∃ row ∈ rows, RowCarries source transaction row

theorem frameRows_eq_ok {summary : TransactOutputSummary}
    {frame : ActionCallTransactions} {rows : List (IndexedPublicTransaction × Nat)}
    (hok : frameRows summary timestamp frame = .ok rows) :
    List.Forall₂ (fun item row => RowCarries summary.source item.2 row.1) frame.2 rows := by
  obtain ⟨found, hfound, heq⟩ := bind_eq_ok.mp hok
  cases heq
  have hcarries := List.forall₂_map_left_iff.mp (publicTransactionsFromDecoded_eq_ok hfound)
  have hlength : found.length = (frame.2.map Prod.fst).length := by
    rw [List.length_map, hcarries.length_eq]
  rw [← List.map_fst_zip (Nat.le_of_eq hlength)] at hcarries
  exact List.forall₂_map_right_iff.mp hcarries

theorem carriedBy_numberRows {source : IndexedLogSource}
    {transactions : List DecodedRailgunTransaction} {transactionHash : Bytes32}
    {rows : List (IndexedPublicTransaction × Nat)}
    (hrows : List.Forall₂ (RowCarries source) transactions (rows.map Prod.fst)) :
    CarriedBy source transactions (numberRows transactionHash rows) := by
  have hperm : ((sortByKey Prod.snd rows).map Prod.fst).Perm (rows.map Prod.fst) :=
    (sortByKey_perm Prod.snd rows).map _
  have hnumbered : List.Forall₂ (fun row numbered => ∀ transaction,
      RowCarries source transaction row ↔ RowCarries source transaction numbered)
      ((sortByKey Prod.snd rows).map Prod.fst) (numberRows transactionHash rows) := by
    unfold numberRows
    rw [← List.zipIdx_map_fst 0 (sortByKey Prod.snd rows), List.map_map,
      List.forall₂_map_left_iff, List.forall₂_map_right_iff, List.zipIdx_map_fst]
    refine List.forall₂_same.mpr fun item _ transaction => ?_
    exact ⟨fun hcarries => ⟨hcarries.1, hcarries.2, hcarries.3, hcarries.4, hcarries.5,
        hcarries.6, hcarries.7, hcarries.8⟩,
      fun hcarries => ⟨hcarries.1, hcarries.2, hcarries.3, hcarries.4, hcarries.5,
        hcarries.6, hcarries.7, hcarries.8⟩⟩
  constructor
  · intro numbered hmem
    obtain ⟨row, hrow, hsame⟩ := exists_of_forall₂_right hnumbered hmem
    obtain ⟨transaction, htransaction, hcarries⟩ :=
      exists_of_forall₂_right hrows (hperm.subset hrow)
    exact ⟨transaction, htransaction, (hsame transaction).mp hcarries⟩
  · intro transaction hmem
    obtain ⟨row, hrow, hcarries⟩ := exists_of_forall₂_left hrows hmem
    obtain ⟨numbered, hnumber, hsame⟩ :=
      exists_of_forall₂_left hnumbered (hperm.symm.subset hrow)
    exact ⟨numbered, hnumber, (hsame transaction).mp hcarries⟩

theorem carriedBy_frames {summary : TransactOutputSummary}
    {transactionHash : Bytes32} {frames : List ActionCallTransactions}
    {rows : List (List (IndexedPublicTransaction × Nat))}
    (hok : frames.mapM (frameRows summary timestamp) = .ok rows) :
    CarriedBy summary.source (frameTransactionsOf frames)
      (numberRows transactionHash rows.flatten) := by
  apply carriedBy_numberRows
  have hframes : List.Forall₂ (List.Forall₂ fun item row => RowCarries summary.source item.2 row.1)
      (frames.map Prod.snd) rows := by
    rw [List.forall₂_map_left_iff]
    exact (mapM_eq_ok_iff.mp hok).imp fun _ _ hframe => frameRows_eq_ok hframe
  rw [frameTransactionsOf, List.forall₂_map_left_iff, List.forall₂_map_right_iff,
    List.flatMap_def]
  exact List.rel_flatten hframes

/-! ### The caches -/

/-- The calldata the provider serves for an outer transaction: the transaction's own input, or the
input of that hash in its block. -/
def servedCalldata (provider : Provider) (source : IndexedLogSource) : Option Bytes :=
  match provider.getTransactionByHash source.transactionHash with
  | .ok (some input) => some input
  | .ok none =>
      match provider.getFullBlockByHash source.blockHash with
      | .ok (some block) => block.transactions.bind fun transactions =>
          (transactionInputs transactions).get? source.transactionHash
      | _ => none
  | .error _ => none

def CachesServed (provider : Provider) (state : HydrateState) : Prop :=
  state.fullBlocks.Forall fun blockHash context => ∃ block transactions,
    provider.getFullBlockByHash blockHash = .ok (some block)
      ∧ block.transactions = some transactions
      ∧ context.transactionInputs = transactionInputs transactions

structure SameProgress (provider : Provider) (state after : HydrateState) : Prop where
  events_eq : after.actionLogEvents = state.actionLogEvents
  rows_eq : after.publicTransactions = state.publicTransactions
  caches : CachesServed provider after

section Caches

variable {provider : Provider} {state after : HydrateState} {summary : TransactOutputSummary}
  {context : FullBlockContext}

theorem fetchFullBlockContext_eq_ok {source : IndexedLogSource}
    (hok : fetchFullBlockContext provider source = .ok context) :
    ∃ block transactions, provider.getFullBlockByHash source.blockHash = .ok (some block)
      ∧ block.transactions = some transactions
      ∧ context.transactionInputs = transactionInputs transactions := by
  obtain ⟨found, hfound, hnext⟩ := bind_eq_ok.mp hok
  cases found with
  | none => cases hnext
  | some block =>
      obtain ⟨_, -, hnext⟩ := bind_eq_ok.mp hnext
      obtain ⟨_, -, hnext⟩ := bind_eq_ok.mp hnext
      obtain ⟨_, -, hnext⟩ := bind_eq_ok.mp hnext
      obtain ⟨_, -, hnext⟩ := bind_eq_ok.mp hnext
      obtain ⟨inputs, hinputs, heq⟩ := bind_eq_ok.mp hnext
      cases heq
      unfold rawBlockTransactionInputs at hinputs
      split at hinputs
      · cases hinputs
      · rename_i transactions htransactions
        exact ⟨block, transactions, hfound, htransactions, (Except.ok.inj hinputs).symm⟩

theorem fullBlockContext_eq_ok (hcaches : CachesServed provider state)
    (hok : fullBlockContext provider state summary = .ok (context, after)) :
    (∃ block transactions,
        provider.getFullBlockByHash summary.source.blockHash = .ok (some block)
          ∧ block.transactions = some transactions
          ∧ context.transactionInputs = transactionInputs transactions)
      ∧ SameProgress provider state after := by
  unfold fullBlockContext at hok
  split at hok
  · rename_i found hfound
    cases hok
    exact ⟨hcaches _ _ hfound, rfl, rfl, hcaches⟩
  · obtain ⟨found, hfound, heq⟩ := bind_eq_ok.mp hok
    cases heq
    have hserved := fetchFullBlockContext_eq_ok hfound
    exact ⟨hserved, rfl, rfl, hcaches.insert hserved⟩

theorem contextInput_eq_ok {input : Bytes} :
    contextInput summary context = .ok input
      ↔ context.transactionInputs.get? summary.source.transactionHash = some input := by
  unfold contextInput
  split
  · rename_i found hfound
    simp [hfound]
  · rename_i hnone
    simp [hnone]

theorem blockTimestamp_eq_ok (hcaches : CachesServed provider state) {timestamp : Nat}
    (hok : blockTimestamp provider state summary = .ok (timestamp, after)) :
    SameProgress provider state after := by
  unfold blockTimestamp at hok
  split at hok
  · cases hok
    exact ⟨rfl, rfl, hcaches⟩
  · obtain ⟨_, -, heq⟩ := bind_eq_ok.mp hok
    cases heq
    exact ⟨rfl, rfl, hcaches⟩

theorem outerCalldata_eq_ok (hcaches : CachesServed provider state) {calldata : Bytes}
    (hok : outerCalldata provider state summary = .ok (calldata, after)) :
    servedCalldata provider summary.source = some calldata ∧ SameProgress provider state after := by
  obtain ⟨found, hfound, hnext⟩ := bind_eq_ok.mp hok
  unfold servedCalldata
  cases found with
  | some input =>
      cases hnext
      simp only [hfound]
      exact ⟨trivial, rfl, rfl, hcaches⟩
  | none =>
      obtain ⟨⟨context, middle⟩, hcontext, hnext⟩ := bind_eq_ok.mp hnext
      obtain ⟨input, hinput, heq⟩ := bind_eq_ok.mp hnext
      cases heq
      obtain ⟨⟨block, transactions, hblock, htransactions, hinputs⟩, hsame⟩ :=
        fullBlockContext_eq_ok hcaches hcontext
      have hserved := contextInput_eq_ok.mp hinput
      rw [hinputs] at hserved
      simp only [hfound, hblock, htransactions, Option.bind_some]
      exact ⟨hserved, hsame⟩

theorem calldataWithTimestamp_eq_ok (hcaches : CachesServed provider state) {found : Nat × Bytes}
    (hok : calldataWithTimestamp provider state summary = .ok (found, after)) :
    SameProgress provider state after := by
  obtain ⟨input, -, hnext⟩ := bind_eq_ok.mp hok
  cases input with
  | some input =>
      obtain ⟨⟨timestamp, middle⟩, htimestamp, heq⟩ := bind_eq_ok.mp hnext
      cases heq
      exact blockTimestamp_eq_ok hcaches htimestamp
  | none =>
      obtain ⟨⟨context, middle⟩, hcontext, hnext⟩ := bind_eq_ok.mp hnext
      obtain ⟨input, -, heq⟩ := bind_eq_ok.mp hnext
      cases heq
      exact (fullBlockContext_eq_ok hcaches hcontext).2

end Caches

/-! ### One outer transaction -/

def eventsOf (events : OrdMap Bytes32 ActionLogEvents) (summary : TransactOutputSummary) :
    ActionLogEvents :=
  (events.get? summary.source.transactionHash).getD OrdMap.empty

def ActionOutcome (contracts : Contracts) (provider : Provider) (summary : TransactOutputSummary)
    (events : ActionLogEvents) (resolved : List ActionCallTransactions) : Prop :=
  ∃ frames, decodedTransactionsFromActionLogs contracts summary events = .ok frames
    ∧ ((unshieldRows frames = [] ∧ resolved = frames)
      ∨ ∃ calldata derivations divergences,
        servedCalldata provider summary.source = some calldata
          ∧ resolveUnshieldCommitments contracts summary calldata frames
            = .ok (resolved, derivations, divergences))

def fromActionLogs (actionStartBlock : Option Nat) (summary : TransactOutputSummary) : Bool :=
  actionStartBlock.any fun start => start ≤ summary.source.blockNumber

structure SummaryOutcome (contracts : Contracts) (provider : Provider)
    (actionStartBlock : Option Nat) (events : OrdMap Bytes32 ActionLogEvents)
    (summary : TransactOutputSummary) (rows : List IndexedPublicTransaction) : Prop where
  sources : ∀ row ∈ rows, row.source = summary.source
  actionRows : fromActionLogs actionStartBlock summary = true →
    ∃ resolved, ActionOutcome contracts provider summary (eventsOf events summary) resolved
      ∧ CarriedBy summary.source (frameTransactionsOf resolved) rows

section Step

variable {contracts : Contracts} {provider : Provider} {railgunContract : Address}
  {actionStartBlock : Option Nat} {state after : HydrateState} {summary : TransactOutputSummary}

section

variable (hcaches : CachesServed provider state)

include hcaches

theorem resolveFrames_eq_ok {frames resolved : List ActionCallTransactions}
    (hok : resolveFrames contracts provider state summary frames = .ok (resolved, after)) :
    ((unshieldRows frames = [] ∧ resolved = frames)
      ∨ ∃ calldata derivations divergences,
        servedCalldata provider summary.source = some calldata
          ∧ resolveUnshieldCommitments contracts summary calldata frames
            = .ok (resolved, derivations, divergences))
      ∧ SameProgress provider state after := by
  unfold resolveFrames at hok
  split at hok
  · obtain ⟨⟨calldata, middle⟩, hcalldata, hnext⟩ := bind_eq_ok.mp hok
    obtain ⟨⟨found, derivations, divergences⟩, hresolve, heq⟩ := bind_eq_ok.mp hnext
    cases heq
    obtain ⟨hserved, hevents, hrows, hcaches⟩ := outerCalldata_eq_ok hcaches hcalldata
    exact ⟨.inr ⟨calldata, derivations, divergences, hserved, hresolve⟩, hevents, hrows, hcaches⟩
  · rename_i hnone
    cases hok
    refine ⟨.inl ⟨?_, rfl⟩, rfl, rfl, hcaches⟩
    simp only [List.any_eq_true, not_exists, not_and] at hnone
    rw [unshieldRows, List.filter_eq_nil_iff]
    intro row hrow
    obtain ⟨item, hitem, rfl⟩ := List.mem_map.mp hrow
    exact hnone item hitem

theorem hydrateFromActionLogs_eq_ok
    (hok : hydrateFromActionLogs contracts provider state summary = .ok after) :
    ∃ rows resolved,
      after.actionLogEvents = state.actionLogEvents.filter
          (fun found _ => found ≠ summary.source.transactionHash)
        ∧ after.publicTransactions = state.publicTransactions ++ rows
        ∧ CachesServed provider after
        ∧ ActionOutcome contracts provider summary (eventsOf state.actionLogEvents summary) resolved
        ∧ CarriedBy summary.source (frameTransactionsOf resolved) rows := by
  obtain ⟨frames, hframes, hnext⟩ := bind_eq_ok.mp hok
  obtain ⟨⟨resolved, middle⟩, hresolved, hnext⟩ := bind_eq_ok.mp hnext
  obtain ⟨⟨timestamp, last⟩, htimestamp, hnext⟩ := bind_eq_ok.mp hnext
  obtain ⟨rows, hrows, heq⟩ := bind_eq_ok.mp hnext
  cases heq
  have hremoved : CachesServed provider { state with
      actionLogEvents := state.actionLogEvents.filter
        fun found _ => found ≠ summary.source.transactionHash } := hcaches
  obtain ⟨houtcome, hmiddle⟩ := resolveFrames_eq_ok hremoved hresolved
  have hlast := blockTimestamp_eq_ok hmiddle.caches htimestamp
  refine ⟨numberRows summary.source.transactionHash rows.flatten, resolved,
    hlast.events_eq.trans hmiddle.events_eq, ?_, hlast.caches, ⟨frames, hframes, houtcome⟩,
    carriedBy_frames hrows⟩
  exact congrArg (· ++ _) (hlast.rows_eq.trans hmiddle.rows_eq)

theorem hydrateFromCalldata_eq_ok
    (hok : hydrateFromCalldata contracts provider railgunContract state summary = .ok after) :
    ∃ rows, after.actionLogEvents = state.actionLogEvents
      ∧ after.publicTransactions = state.publicTransactions ++ rows
      ∧ CachesServed provider after ∧ ∀ row ∈ rows, row.source = summary.source := by
  obtain ⟨⟨⟨timestamp, calldata⟩, middle⟩, hcalldata, hnext⟩ := bind_eq_ok.mp hok
  obtain ⟨rows, hrows, hnext⟩ := bind_eq_ok.mp hnext
  have hsame := calldataWithTimestamp_eq_ok hcaches hcalldata
  split at hnext
  · cases hnext
  · cases hnext
    exact ⟨rows, hsame.events_eq, congrArg (· ++ _) hsame.rows_eq, hsame.caches,
      publicTransactionsFromCalldataOrTrace_sources hrows⟩

theorem hydrateSummary_eq_ok
    (hok : hydrateSummary contracts provider railgunContract actionStartBlock state summary
      = .ok after) :
    ∃ rows, after.publicTransactions = state.publicTransactions ++ rows
      ∧ CachesServed provider after
      ∧ SummaryOutcome contracts provider actionStartBlock state.actionLogEvents summary rows
      ∧ ∀ other, other ≠ summary.source.transactionHash →
        after.actionLogEvents.get? other = state.actionLogEvents.get? other := by
  unfold hydrateSummary at hok
  split at hok
  · obtain ⟨rows, resolved, hevents, hrows, hafter, houtcome, hcarried⟩ :=
      hydrateFromActionLogs_eq_ok hcaches hok
    refine ⟨rows, hrows, hafter, ⟨?_, fun _ => ⟨resolved, houtcome, hcarried⟩⟩, ?_⟩
    · intro row hrow
      obtain ⟨transaction, -, hcarries⟩ := hcarried.1 row hrow
      exact hcarries.source_eq
    · intro other hother
      rw [hevents, OrdMap.get?_filter]
      cases state.actionLogEvents.get? other with
      | none => rfl
      | some events => exact Option.filter_some_pos (by simpa using hother)
  · rename_i hearlier
    obtain ⟨rows, hevents, hrows, hafter, hsources⟩ := hydrateFromCalldata_eq_ok hcaches hok
    refine ⟨rows, hrows, hafter, ⟨hsources, fun hactive => absurd hactive hearlier⟩, ?_⟩
    intro other _
    rw [hevents]

end

end Step

/-! ### The sources of the summaries -/

section Sources

variable {P : Bytes32 → IndexedLogSource → Prop}

theorem forall_foldl_record {ω : Type} {items : List ω} {source : ω → IndexedLogSource}
    {family : EmittedOutputFamily} {treeNumber treePosition : ω → Nat} {hash : ω → Bytes32}
    {summaries : Summaries}
    (hitems : ∀ item ∈ items, P (source item).transactionHash (source item))
    (hsummaries : summaries.Forall fun hash summary => P hash summary.source) :
    OrdMap.Forall (fun hash summary => P hash summary.source)
      (items.foldl (fun summaries item => recordPublicTransactionSummary summaries (source item)
        family (treeNumber item) (treePosition item) (hash item)) summaries) :=
  List.foldlRecOn items _ hsummaries fun _ hfound item hitem =>
    hfound.upsert (hitems item hitem) fun _ hsummary => hsummary

theorem nullifierGroupsByTransaction_sources {nullifiers : List IndexedNullifier}
    (hitems : ∀ item ∈ nullifiers, P item.source.transactionHash item.source) :
    (nullifierGroupsByTransaction nullifiers).Forall fun hash groups =>
      ∀ group ∈ groups, P hash group.source := by
  refine List.foldlRecOn _ _ OrdMap.forall_empty fun found hfound entry hentry =>
    hfound.insert fun group hgroup => ?_
  refine (List.foldlRecOn (motive := OrdMap.Forall fun hash groups =>
    ∀ group ∈ groups, P hash group.source) _ _ OrdMap.forall_empty ?_) entry.1 entry.2
    (OrdMap.get?_eq_some_iff.mpr hentry) group ((sortByKey_perm _ entry.2).subset hgroup)
  intro byTransaction hby added hadded
  obtain ⟨key, hkey⟩ := OrdMap.mem_values_iff.mp hadded
  have hadded : P added.source.transactionHash added.source :=
    (List.foldlRecOn (motive := OrdMap.Forall fun _ group =>
      P group.source.transactionHash group.source) nullifiers _ OrdMap.forall_empty
      fun _ hgrouped item hitem => hgrouped.upsert (hitems item hitem) fun _ hsource => hsource)
      key added hkey
  refine hby.upsert (by simpa using hadded) fun groups hgroups group hmem => ?_
  obtain hmem | hmem := List.mem_append.mp hmem
  · exact hgroups group hmem
  · rwa [List.mem_singleton.mp hmem]

theorem forall_addNullifierGroups {summaries : Summaries} {entry : Bytes32 × List NullifierGroup}
    (hsummaries : summaries.Forall fun hash summary => P hash summary.source)
    (hentry : ∀ group ∈ entry.2, P entry.1 group.source) :
    (addNullifierGroups summaries entry).Forall fun hash summary => P hash summary.source := by
  unfold addNullifierGroups
  split
  · rename_i summary hfound
    refine hsummaries.insert ?_
    exact List.foldlRecOn (motive := fun found : TransactOutputSummary => P entry.1 found.source)
      _ _ (hsummaries _ _ hfound) fun _ hsource _ _ => hsource
  · exact hsummaries
  · rename_i first rest _ hgroups
    refine hsummaries.insert (hentry first ?_)
    rw [hgroups]
    exact List.mem_cons_self

theorem publicTransactionSummaries_sources {contracts : Contracts} {batch : IndexedLogBatch}
    (hlogs : ∀ source ∈ logSources batch, P source.transactionHash source) :
    (publicTransactionSummaries contracts batch).Forall fun hash summary =>
      P hash summary.source := by
  obtain ⟨htransact, -, hnullifier, hencrypted, hgenerated⟩ := forall_mem_logSources.mp hlogs
  refine List.foldlRecOn _ _ ?_ fun summaries hsummaries entry hentry => ?_
  · refine forall_foldl_record (fun item hitem => ?_) (forall_foldl_record (fun item hitem => ?_)
      (forall_foldl_record (fun item hitem => ?_) OrdMap.forall_empty))
    · exact hgenerated _ (List.mem_filter.mp hitem).1
    · exact hencrypted _ (List.mem_filter.mp hitem).1
    · exact htransact _ hitem
  · refine forall_addNullifierGroups hsummaries (nullifierGroupsByTransaction_sources
      (fun item hitem => ?_) _ _ (OrdMap.get?_eq_some_iff.mpr hentry))
    exact hnullifier _ hitem

end Sources

/-! ### The whole batch -/

theorem eventsOf_eq {left right : OrdMap Bytes32 ActionLogEvents} {summary : TransactOutputSummary}
    (hget : left.get? summary.source.transactionHash = right.get? summary.source.transactionHash) :
    eventsOf left summary = eventsOf right summary := by
  rw [eventsOf, hget, eventsOf]

theorem foldlM_hydrateSummary {contracts : Contracts} {provider : Provider}
    {actionStartBlock : Option Nat} {state after : HydrateState}
    {summaries : List TransactOutputSummary} (hcaches : CachesServed provider state)
    (hdistinct : (summaries.map fun summary => summary.source.transactionHash).Nodup)
    (hrun : summaries.foldlM (hydrateSummary contracts provider railgunContract actionStartBlock)
      state = .ok after) :
    ∃ parts, after.publicTransactions = state.publicTransactions ++ parts.flatten
      ∧ List.Forall₂
        (SummaryOutcome contracts provider actionStartBlock state.actionLogEvents)
        summaries parts := by
  induction summaries generalizing state with
  | nil =>
      cases hrun
      exact ⟨[], by simp, .nil⟩
  | cons summary rest ih =>
      obtain ⟨middle, hfirst, hrest⟩ := bind_eq_ok.mp hrun
      obtain ⟨rows, hrows, hmiddle, houtcome, hevents⟩ := hydrateSummary_eq_ok hcaches hfirst
      rw [List.map_cons, List.nodup_cons] at hdistinct
      obtain ⟨parts, hparts, houtcomes⟩ := ih hmiddle hdistinct.2 hrest
      refine ⟨rows :: parts, by simp [hparts, hrows], .cons houtcome ?_⟩
      have hother : ∀ other ∈ rest, eventsOf middle.actionLogEvents other
          = eventsOf state.actionLogEvents other := by
        intro other hmem
        refine eventsOf_eq (hevents _ fun heq => hdistinct.1 ?_)
        exact heq ▸ List.mem_map_of_mem hmem
      refine ((List.forall₂_and_left _ _).mpr ⟨hother, houtcomes⟩).imp ?_
      rintro other found ⟨hsame, hfound⟩
      exact ⟨hfound.sources, hsame ▸ hfound.actionRows⟩

theorem hydratePublicTransactions_eq_ok {contracts : Contracts} {provider : Provider}
    {actionStartBlock : Option Nat} {batch after : IndexedLogBatch}
    {summaries : List TransactOutputSummary}
    (horder : summaries.Perm (publicTransactionSummaries contracts batch).values)
    (hok : hydratePublicTransactions contracts provider railgunContract actionStartBlock summaries
      batch = .ok after) :
    ∃ parts, after.publicTransactions.Perm (batch.publicTransactions ++ parts.flatten)
      ∧ List.Forall₂ (SummaryOutcome contracts provider actionStartBlock
        (initialHydrateState actionStartBlock batch).actionLogEvents) summaries parts := by
  obtain ⟨state, hrun, heq⟩ := bind_eq_ok.mp hok
  cases heq
  have hdistinct : (summaries.map fun summary => summary.source.transactionHash).Nodup :=
    (horder.map _).nodup_iff.mpr
      (OrdMap.nodup_values_of_forall (publicTransactionSummaries_sources
        (P := fun hash source => source.transactionHash = hash) fun _ _ => rfl))
  have hcaches : CachesServed provider (initialHydrateState actionStartBlock batch) :=
    OrdMap.forall_empty
  obtain ⟨parts, hparts, houtcomes⟩ := foldlM_hydrateSummary hcaches hdistinct hrun
  refine ⟨parts, (sortByKey_perm _ _).trans ?_, houtcomes⟩
  rw [hparts]
  rfl

end RailgunIndexer
