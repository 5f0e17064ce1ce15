import Mathlib.Algebra.GroupWithZero.Nat
import Mathlib.Data.Fin.Basic
import Mathlib.Order.Fin.Basic

/-!
# Words, logs and transactions

The data the chain indexer passes around: fixed-width words, the Railgun events it reads, and the
rows of an indexed batch. Fixed-size byte strings are big-endian numbers, so reading a 32-byte word
as an unsigned integer is the identity and the byte order of two words is their numeric order.
-/

namespace RailgunIndexer

/-- A string of `n` bytes, as the number it spells in big-endian order. -/
abbrev FixedBytes (n : Nat) := Fin (256 ^ n)

def FixedBytes.ofNat {n : Nat} (value : Nat) : FixedBytes n :=
  Fin.ofNat (256 ^ n) value

instance (n value : Nat) : OfNat (FixedBytes n) value :=
  ⟨FixedBytes.ofNat value⟩

abbrev Bytes32 := FixedBytes 32

abbrev U256 := FixedBytes 32

abbrev Address := FixedBytes 20

abbrev Bytes := List UInt8

def u32Bound : Nat := 2 ^ 32

def u64Bound : Nat := 2 ^ 64

/-- Positive range of the database's `BIGINT`. -/
def i64Bound : Nat := 2 ^ 63

/-- A 32-byte word as `0x` and its 64 hexadecimal digits. -/
def displayBytes32 (word : Bytes32) : String :=
  "0x" ++ String.ofList ((List.range 64).map fun digit =>
    Nat.digitChar (word.val / 16 ^ (63 - digit) % 16))

structure TokenData where
  tokenType : Nat
  tokenAddress : Address
  tokenSubID : U256
  deriving DecidableEq

structure CommitmentPreimage where
  npk : Bytes32
  token : TokenData
  value : FixedBytes 15
  deriving DecidableEq

/-- The preimage of a legacy generated commitment, carried as its ABI encoding. -/
structure LegacyCommitmentPreimage where
  abi : Bytes
  deriving DecidableEq

/-- One configuration of an `Action` log. `commitmentsCount` excludes the unshield commitment. -/
structure TXConfig where
  nullifiersCount : Nat
  commitmentsCount : Nat
  hasUnshield : Bool
  boundParamsHash : Bytes32
  deriving DecidableEq

structure Unshield where
  toAddress : Address
  token : TokenData
  amount : U256
  fee : U256
  deriving DecidableEq

/-- The bound parameters of a transaction: the two fields the indexer reads, and the others as their
encoding. -/
structure BoundParams where
  treeNumber : Nat
  unshield : Nat
  remaining : Bytes
  deriving DecidableEq

/-- A Railgun transaction as calldata carries it. The proof and the Merkle root are never read. -/
structure Transaction where
  nullifiers : List Bytes32
  commitments : List Bytes32
  boundParams : BoundParams
  unshieldPreimage : CommitmentPreimage
  deriving DecidableEq

/-- A transaction of the contracts before version 2. Its `withdraw` is `boundParams.unshield`. -/
structure LegacyTransaction where
  nullifiers : List U256
  commitments : List U256
  boundParams : BoundParams
  unshieldPreimage : CommitmentPreimage
  deriving DecidableEq

/-! ### Indexed rows -/

structure IndexedLogSource where
  blockNumber : Nat
  blockTimestamp : Option Nat
  blockHash : Bytes32
  transactionHash : Bytes32
  logIndex : Nat
  deriving DecidableEq

structure IndexedTransactCommitment where
  treeNumber : Nat
  treePosition : Nat
  hash : Bytes32
  ciphertext : Option Bytes
  source : IndexedLogSource
  deriving DecidableEq

structure IndexedShieldCommitment where
  treeNumber : Nat
  treePosition : Nat
  preimage : CommitmentPreimage
  shieldCiphertext : Bytes
  source : IndexedLogSource
  deriving DecidableEq

structure IndexedNullifier where
  treeNumber : Nat
  nullifier : Bytes32
  source : IndexedLogSource
  deriving DecidableEq

structure IndexedLegacyEncryptedCommitment where
  treeNumber : Nat
  treePosition : Nat
  hash : Bytes32
  ciphertext : Bytes
  source : IndexedLogSource
  deriving DecidableEq

structure IndexedLegacyGeneratedCommitment where
  treeNumber : Nat
  treePosition : Nat
  preimage : LegacyCommitmentPreimage
  encryptedRandom : U256 × U256
  source : IndexedLogSource
  deriving DecidableEq

structure IndexedAction where
  txconfigs : List TXConfig
  source : IndexedLogSource
  deriving DecidableEq

structure IndexedUnshield where
  unshield : Unshield
  source : IndexedLogSource
  deriving DecidableEq

structure IndexedPublicTransaction where
  source : IndexedLogSource
  firstLogIndex : Nat
  lastLogIndex : Nat
  railgunTransactionIndex : Nat
  id : String
  blockTimestamp : Nat
  nullifiers : List Bytes32
  commitments : List Bytes32
  boundParamsHash : Bytes32
  hasUnshield : Bool
  unshieldPreimage : Option Bytes
  utxoTreeIn : Nat
  utxoTreeOut : Nat
  utxoBatchStartPositionOut : Nat
  railgunTxid : U256
  deriving DecidableEq

structure IndexedLogBatch where
  transactCommitments : List IndexedTransactCommitment := []
  shieldCommitments : List IndexedShieldCommitment := []
  nullifiers : List IndexedNullifier := []
  legacyEncryptedCommitments : List IndexedLegacyEncryptedCommitment := []
  legacyGeneratedCommitments : List IndexedLegacyGeneratedCommitment := []
  actions : List IndexedAction := []
  unshields : List IndexedUnshield := []
  publicTransactions : List IndexedPublicTransaction := []
  unshieldLogDerivations : Nat := 0
  unshieldLogDivergences : Nat := 0
  deriving DecidableEq

def logSources (batch : IndexedLogBatch) : List IndexedLogSource :=
  batch.transactCommitments.map (fun item => item.source)
    ++ batch.shieldCommitments.map (fun item => item.source)
    ++ batch.nullifiers.map (fun item => item.source)
    ++ batch.legacyEncryptedCommitments.map (fun item => item.source)
    ++ batch.legacyGeneratedCommitments.map (fun item => item.source)

def rowSources (batch : IndexedLogBatch) : List IndexedLogSource :=
  logSources batch ++ batch.publicTransactions.map fun item => item.source

section Sources

variable {batch : IndexedLogBatch} {source : IndexedLogSource}

theorem mem_rowSources :
    source ∈ rowSources batch
      ↔ source ∈ logSources batch
        ∨ source ∈ batch.publicTransactions.map (fun item => item.source) :=
  List.mem_append

theorem forall_mem_logSources {P : IndexedLogSource → Prop} :
    (∀ source ∈ logSources batch, P source)
      ↔ (∀ item ∈ batch.transactCommitments, P item.source)
        ∧ (∀ item ∈ batch.shieldCommitments, P item.source)
        ∧ (∀ item ∈ batch.nullifiers, P item.source)
        ∧ (∀ item ∈ batch.legacyEncryptedCommitments, P item.source)
        ∧ ∀ item ∈ batch.legacyGeneratedCommitments, P item.source := by
  simp only [logSources, List.forall_mem_append, List.forall_mem_map, and_assoc]

end Sources

/-! ### Decoded transactions and the outputs of their logs -/

inductive RailgunCallKind where
  | transact
  | relay
  | execute
  | legacyRelay
  | legacyTransact
  | actionLogs
  deriving DecidableEq

structure DecodedRailgunTransaction where
  callKind : RailgunCallKind
  nullifiers : List Bytes32
  commitments : List Bytes32
  boundParamsHash : Bytes32
  hasUnshield : Bool
  unshieldPreimage : Option Bytes
  utxoTreeIn : Nat
  railgunTxid : U256
  deriving DecidableEq

inductive EmittedOutputFamily where
  | transact
  | legacyEncrypted
  | legacyGenerated
  deriving DecidableEq

structure EmittedOutputCommitment where
  family : EmittedOutputFamily
  logIndex : Nat
  treeNumber : Nat
  treePosition : Nat
  hash : Bytes32
  deriving DecidableEq

structure NullifierGroup where
  source : IndexedLogSource
  nullifiers : List Bytes32
  deriving DecidableEq

structure TransactOutputSummary where
  source : IndexedLogSource
  firstLogIndex : Nat
  lastLogIndex : Nat
  outputCommitments : List EmittedOutputCommitment
  nullifierGroups : List NullifierGroup
  deriving DecidableEq

/-! ### Errors -/

/-- Why a range cannot be ingested. `uintConversion` stands for the panic of a narrowing conversion
of a word that does not fit. -/
inductive ChainLogIngestionError where
  | provider
  | decode
  | transact
  | uintConversion
  | missingLogMetadata (field : String)
  | missingTransaction (transactionHash : Bytes32) (blockNumber : Nat) (blockHash : Bytes32)
      (firstLogIndex lastLogIndex : Nat)
  | missingRailgunCalldata (transactionHash : Bytes32) (blockNumber : Nat) (blockHash : Bytes32)
      (firstLogIndex lastLogIndex : Nat)
  | unmatchedTransactionOutputCommitments (transactionHash : Bytes32) (blockNumber : Nat)
      (railgunTransactionIndex : Nat)
  | missingTransactionNullifierGroup (transactionHash : Bytes32) (blockNumber : Nat)
      (railgunTransactionIndex : Nat)
  | ambiguousTransactionNullifierGroup (transactionHash : Bytes32) (blockNumber : Nat)
      (railgunTransactionIndex found : Nat)
  | unmatchedEmittedOutputCommitments (transactionHash : Bytes32) (blockNumber : Nat)
      (consumed emitted : Nat)
  | missingBlock (blockNumber : Nat) (blockHash : Bytes32)
  | mismatchedBlock (expectedBlockNumber : Nat) (expectedBlockHash : Bytes32)
      (actualBlockNumber : Nat) (actualBlockHash : Bytes32)
  | missingFullBlockTransactions (blockNumber : Nat) (blockHash : Bytes32)
  | invalidBlockField (blockNumber : Nat) (blockHash : Bytes32) (field : String)
  | actionNullifierCountMismatch (transactionHash : Bytes32) (blockNumber logIndex : Nat)
  | actionCommitmentCountMismatch (transactionHash : Bytes32) (blockNumber logIndex : Nat)
  | missingActionUnshield (transactionHash : Bytes32) (blockNumber logIndex : Nat)
  | unmatchedActionLog (transactionHash : Bytes32) (blockNumber logIndex : Nat)
  | ambiguousUnshieldCalldata (transactionHash : Bytes32) (blockNumber found : Nat)
  | contradictingUnshieldCalldata (transactionHash : Bytes32) (blockNumber : Nat) (field : String)
  | integerOverflow (quantity : String)
  deriving DecidableEq

/-! ### Functions of the contract bindings -/

/-- A decoded Railgun entrypoint call: its transactions and the calldata of its nested calls. -/
structure EntrypointCall where
  transactions : List Transaction
  nestedCalls : List Bytes
  deriving DecidableEq

/-- What the indexer takes from its contract bindings: hashes, the ABI encoding of a commitment
preimage, and the decoders of the entrypoints that can carry Railgun transactions. -/
structure Contracts where
  preimageHash : CommitmentPreimage → U256
  legacyPreimageHash : LegacyCommitmentPreimage → U256
  boundParamsHash : BoundParams → U256
  legacyBoundParamsHash : BoundParams → U256
  railgunTxid : Transaction → Option U256
  railgunTxidParts : List U256 → List U256 → U256 → U256
  encodePreimage : CommitmentPreimage → Bytes
  decodePreimage : Bytes → Option CommitmentPreimage
  decodeTransact : Bytes → Option (List Transaction)
  decodeRelay : Bytes → Option EntrypointCall
  decodeExecute : Bytes → Option EntrypointCall
  decodeExecute7702 : Bytes → Option EntrypointCall
  decodeMulticall7702 : Bytes → Option (List Bytes)
  decodeMulticall : Bytes → Option (List Bytes)
  decodeHandleOps : Bytes → Option (List Bytes)
  decodeLegacyRelay : Bytes → Option (List LegacyTransaction)
  decodeLegacyTransact : Bytes → Option (List LegacyTransaction)

/-- Stand-in bindings with hashes that can be computed by hand and decoders that accept nothing. -/
def toyContracts : Contracts where
  preimageHash preimage := preimage.npk
  legacyPreimageHash _ := 0
  boundParamsHash boundParams := FixedBytes.ofNat boundParams.treeNumber
  legacyBoundParamsHash boundParams := FixedBytes.ofNat boundParams.treeNumber
  railgunTxid transaction := some (FixedBytes.ofNat transaction.boundParams.treeNumber)
  railgunTxidParts _ _ boundParamsHash := boundParamsHash
  encodePreimage _ := []
  decodePreimage _ := none
  decodeTransact _ := none
  decodeRelay _ := none
  decodeExecute _ := none
  decodeExecute7702 _ := none
  decodeMulticall7702 _ := none
  decodeMulticall _ := none
  decodeHandleOps _ := none
  decodeLegacyRelay _ := none
  decodeLegacyTransact _ := none

end RailgunIndexer
