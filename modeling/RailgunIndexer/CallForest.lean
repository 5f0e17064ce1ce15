import RailgunIndexer.ActionLogs

/-!
# Forests of Railgun calls

What the contract can emit in one outer transaction: an ordered forest of calls. A call emits one
`Nullified` per configuration, an `Action`, then its `Unshield` logs interleaved with complete nested
calls and with the empty `Action` logs of shields, and last a `Transact` when it has outputs. The
forest carries the log index of each of its logs. `rows` is what a reader of the forest should get:
one transaction per configuration, in the order of the `Action` logs.
-/

namespace RailgunIndexer

/-- An `Unshield` log whose value fits the 120 bits of a note. -/
structure UnshieldLog where
  logIndex : Nat
  unshield : Unshield
  fits : unshield.amount.val + unshield.fee.val < 256 ^ 15

def UnshieldLog.preimage (log : UnshieldLog) : CommitmentPreimage where
  npk := Address.intoWord log.unshield.toAddress
  token := log.unshield.token
  value := ⟨log.unshield.amount.val + log.unshield.fee.val, log.fits⟩

structure CallConfig where
  nullifiedIndex : Nat
  treeNumber : Nat
  nullifiers : List Bytes32
  nullifiers_ne : nullifiers ≠ []
  commitments : List Bytes32
  hasUnshield : Bool
  boundParamsHash : Bytes32

def CallConfig.txconfig (config : CallConfig) : TXConfig where
  nullifiersCount := config.nullifiers.length
  commitmentsCount := config.commitments.length
  hasUnshield := config.hasUnshield
  boundParamsHash := config.boundParamsHash

/-- A call without its body. A vector's length fits a machine word. -/
structure CallHeader where
  configs : List CallConfig
  configs_ne : configs ≠ []
  actionIndex : Nat
  transactIndex : Nat
  commitments_lt : (configs.flatMap fun config => config.commitments).length < u64Bound

namespace CallHeader

def commitments (header : CallHeader) : List Bytes32 :=
  header.configs.flatMap fun config => config.commitments

def unshieldCount (header : CallHeader) : Nat :=
  header.configs.countP fun config => config.hasUnshield

def nullifiedEvents (header : CallHeader) : List (Nat × ActionLogEvent) :=
  header.configs.map fun config =>
    (config.nullifiedIndex, .nullified config.treeNumber config.nullifiers)

def actionEvent (header : CallHeader) : Nat × ActionLogEvent :=
  (header.actionIndex, .action (header.configs.map CallConfig.txconfig))

def transactEvents (header : CallHeader) : List (Nat × ActionLogEvent) :=
  if header.commitments = [] then [] else [(header.transactIndex, .transact header.commitments)]

def transactTag (header : CallHeader) : Option Nat :=
  if header.commitments = [] then none else some header.transactIndex

end CallHeader

/-! ### Rows -/

def configRow (contracts : Contracts) (config : CallConfig) (unshield : Option UnshieldLog) :
    DecodedRailgunTransaction :=
  let commitments := config.commitments
    ++ (unshield.map fun log => contracts.preimageHash log.preimage).toList
  { callKind := .actionLogs
    nullifiers := config.nullifiers
    commitments
    boundParamsHash := config.boundParamsHash
    hasUnshield := config.hasUnshield
    unshieldPreimage := unshield.map fun log => contracts.encodePreimage log.preimage
    utxoTreeIn := config.treeNumber
    railgunTxid := railgunTxidFromParts contracts config.nullifiers commitments
      config.boundParamsHash }

/-- The rows of a call: its `Unshield` logs belong to its unshield configurations in order. -/
def callRows (contracts : Contracts) : List CallConfig → List UnshieldLog →
    List DecodedRailgunTransaction
  | [], _ => []
  | config :: rest, unshields =>
      if config.hasUnshield then
        configRow contracts config unshields.head? :: callRows contracts rest unshields.tail
      else
        configRow contracts config none :: callRows contracts rest unshields

def numberFrom (base : Nat) (rows : List DecodedRailgunTransaction) :
    List (Nat × DecodedRailgunTransaction) :=
  (List.range' base rows.length).zip rows

/-! ### Forests -/

/-- The items after an `Action` log, or of a whole outer transaction. -/
inductive CallItems where
  | nil
  | unshield (log : UnshieldLog) (rest : CallItems)
  | shield (logIndex : Nat) (rest : CallItems)
  | call (header : CallHeader) (body rest : CallItems)

namespace CallItems

def unshields : CallItems → List UnshieldLog
  | nil => []
  | unshield log rest => log :: rest.unshields
  | shield _ rest => rest.unshields
  | call _ _ rest => rest.unshields

def events : CallItems → List (Nat × ActionLogEvent)
  | nil => []
  | unshield log rest => (log.logIndex, .unshield log.unshield) :: rest.events
  | shield logIndex rest => (logIndex, .action []) :: rest.events
  | call header body rest =>
      header.nullifiedEvents ++ header.actionEvent :: (body.events ++ header.transactEvents
        ++ rest.events)

/-- Every call has as many `Unshield` logs as it declares. -/
def WellFormed : CallItems → Prop
  | nil => True
  | unshield _ rest => rest.WellFormed
  | shield _ rest => rest.WellFormed
  | call header body rest =>
      body.unshields.length = header.unshieldCount ∧ body.WellFormed ∧ rest.WellFormed

def configCount : CallItems → Nat
  | nil => 0
  | unshield _ rest => rest.configCount
  | shield _ rest => rest.configCount
  | call header body rest => header.configs.length + body.configCount + rest.configCount

def rows (contracts : Contracts) : CallItems → List DecodedRailgunTransaction
  | nil => []
  | unshield _ rest => rest.rows contracts
  | shield _ rest => rest.rows contracts
  | call header body rest =>
      callRows contracts header.configs body.unshields ++ body.rows contracts ++ rest.rows contracts

/-- The rows of each call, numbered from `base` and tagged with the call's `Transact` log. -/
def groups (contracts : Contracts) (base : Nat) : CallItems → List ActionCallTransactions
  | nil => []
  | unshield _ rest => rest.groups contracts base
  | shield _ rest => rest.groups contracts base
  | call header body rest =>
      (header.transactTag, numberFrom base (callRows contracts header.configs body.unshields))
        :: (body.groups contracts (base + header.configs.length)
          ++ rest.groups contracts (base + header.configs.length + body.configCount))

end CallItems

/-- The Railgun calls of one outer transaction, with strictly increasing log indexes. -/
structure CallForest where
  items : CallItems
  wellFormed : items.WellFormed
  topLevel : items.unshields = []
  increasing : items.events.Pairwise fun earlier later => earlier.1 < later.1

end RailgunIndexer
