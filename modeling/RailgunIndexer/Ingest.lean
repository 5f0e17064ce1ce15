import RailgunIndexer.Types

/-!
# Ingesting logs

`ingestChainLogs` turns the logs of a block range into the rows of a batch. A commitment's place in
the forest of Merkle trees is a tree number and a position; positions past the end of a tree roll
over into the next one.
-/

namespace RailgunIndexer

def treeLeafCount : Nat := 65536

/-! ### Positions -/

def normalizeTreePosition (treeNumber treePosition : Nat) :
    Except ChainLogIngestionError (Nat × Nat) :=
  if u32Bound ≤ treePosition / treeLeafCount then
    .error (.integerOverflow "tree_number")
  else if u32Bound ≤ treeNumber + treePosition / treeLeafCount then
    .error (.integerOverflow "tree_number")
  else
    .ok (treeNumber + treePosition / treeLeafCount, treePosition % treeLeafCount)

def normalizedEventPosition (treeNumber startPosition index : Nat) :
    Except ChainLogIngestionError (Nat × Nat) :=
  if u64Bound ≤ startPosition + index then
    .error (.integerOverflow "tree_position")
  else
    normalizeTreePosition treeNumber (startPosition + index)

def normalizedGlobalPosition (globalPosition : Nat) : Except ChainLogIngestionError (Nat × Nat) :=
  normalizeTreePosition 0 globalPosition

def globalTreePosition (treeNumber treePosition : Nat) : Except ChainLogIngestionError Nat :=
  if u64Bound ≤ treeNumber * treeLeafCount + treePosition then
    .error (.integerOverflow "global_tree_position")
  else
    .ok (treeNumber * treeLeafCount + treePosition)

/-- The key outputs are sorted by, computed in 128-bit words that wrap. -/
def comparableGlobalTreePositionU128 (treeNumber : UInt32) (treePosition : UInt64) : BitVec 128 :=
  treeNumber.toBitVec.setWidth 128 * BitVec.ofNat 128 treeLeafCount
    + treePosition.toBitVec.setWidth 128

/-! ### Logs -/

/-- The decoded payload of a log. A log of a known event whose data does not decode is
`undecodable`; a log of any other event is `other`. -/
inductive LogEvent where
  | transact (treeNumber startPosition : U256) (hash : List Bytes32) (ciphertext : List Bytes)
  | shield (treeNumber startPosition : U256) (commitments : List CommitmentPreimage)
      (shieldCiphertext : List Bytes)
  | legacyShield (treeNumber startPosition : U256) (commitments : List CommitmentPreimage)
      (shieldCiphertext : List Bytes)
  | nullifiers (treeNumber : U256) (nullifier : List U256)
  | nullified (treeNumber : Fin (2 ^ 16)) (nullifier : List Bytes32)
  | action (txconfigs : List TXConfig)
  | unshield (unshield : Unshield)
  | commitmentBatch (treeNumber startPosition : U256) (hash : List U256) (ciphertext : List Bytes)
  | generatedCommitmentBatch (treeNumber startPosition : U256)
      (commitments : List LegacyCommitmentPreimage) (encryptedRandom : List (U256 × U256))
  | undecodable
  | other
  deriving DecidableEq

structure Log where
  blockNumber : Option Nat
  blockHash : Option Bytes32
  transactionHash : Option Bytes32
  logIndex : Option Nat
  event : LogEvent
  deriving DecidableEq

def requireMetadata {α : Type} (field : String) : Option α → Except ChainLogIngestionError α
  | some value => .ok value
  | none => .error (.missingLogMetadata field)

def sourceFromLog (log : Log) : Except ChainLogIngestionError IndexedLogSource := do
  let blockNumber ← requireMetadata "block_number" log.blockNumber
  let blockHash ← requireMetadata "block_hash" log.blockHash
  let transactionHash ← requireMetadata "transaction_hash" log.transactionHash
  let logIndex ← requireMetadata "log_index" log.logIndex
  pure ⟨blockNumber, none, blockHash, transactionHash, logIndex⟩

/-- Narrow a word to an integer type with the given bound. The source panics when it does not fit. -/
def uintTo (bound : Nat) (word : U256) : Except ChainLogIngestionError Nat :=
  if bound ≤ word.val then .error .uintConversion else .ok word.val

/-! ### Rows of one log -/

def transactRows (treeNumber startPosition : Nat) (ciphertext : List Bytes)
    (source : IndexedLogSource) (hash : List Bytes32) :
    Except ChainLogIngestionError (List IndexedTransactCommitment) :=
  hash.zipIdx.mapM fun (hash, index) => do
    let (tree, position) ← normalizedEventPosition treeNumber startPosition index
    pure ⟨tree, position, hash, ciphertext[index]?, source⟩

/-- A commitment without a ciphertext is skipped. -/
def shieldRows (treeNumber startPosition : Nat) (commitments : List CommitmentPreimage)
    (ciphertexts : List Bytes) (source : IndexedLogSource) :
    Except ChainLogIngestionError (List IndexedShieldCommitment) :=
  (commitments.zip ciphertexts).zipIdx.mapM fun ((preimage, ciphertext), index) => do
    let (tree, position) ← normalizedEventPosition treeNumber startPosition index
    pure ⟨tree, position, preimage, ciphertext, source⟩

def nullifierRows (treeNumber : Nat) (source : IndexedLogSource) (nullifiers : List Bytes32) :
    List IndexedNullifier :=
  nullifiers.map fun nullifier => ⟨treeNumber, nullifier, source⟩

/-- A ciphertext without a hash is skipped. -/
def legacyEncryptedRows (treeNumber startPosition : Nat) (hash : List U256)
    (ciphertext : List Bytes) (source : IndexedLogSource) :
    Except ChainLogIngestionError (List IndexedLegacyEncryptedCommitment) :=
  (ciphertext.zip hash).zipIdx.mapM fun ((ciphertext, hash), index) => do
    let (tree, position) ← normalizedEventPosition treeNumber startPosition index
    pure ⟨tree, position, hash, ciphertext, source⟩

/-- A commitment without its encrypted random is skipped. -/
def legacyGeneratedRows (treeNumber startPosition : Nat)
    (commitments : List LegacyCommitmentPreimage) (encryptedRandom : List (U256 × U256))
    (source : IndexedLogSource) :
    Except ChainLogIngestionError (List IndexedLegacyGeneratedCommitment) :=
  (commitments.zip encryptedRandom).zipIdx.mapM fun ((preimage, random), index) => do
    let (tree, position) ← normalizedEventPosition treeNumber startPosition index
    pure ⟨tree, position, preimage, random, source⟩

def ingestShieldCommitments (batch : IndexedLogBatch) (log : Log) (treeNumber startPosition : U256)
    (commitments : List CommitmentPreimage) (ciphertexts : List Bytes) :
    Except ChainLogIngestionError IndexedLogBatch := do
  let source ← sourceFromLog log
  let treeNumber ← uintTo u32Bound treeNumber
  let startPosition ← uintTo u64Bound startPosition
  let rows ← shieldRows treeNumber startPosition commitments ciphertexts source
  pure { batch with shieldCommitments := batch.shieldCommitments ++ rows }

/-! ### The ingestion loop -/

def ingestLog (batch : IndexedLogBatch) (log : Log) :
    Except ChainLogIngestionError IndexedLogBatch :=
  match log.event with
  | .transact treeNumber startPosition hash ciphertext => do
      let treeNumber ← uintTo u32Bound treeNumber
      let startPosition ← uintTo u64Bound startPosition
      let source ← sourceFromLog log
      let rows ← transactRows treeNumber startPosition ciphertext source hash
      pure { batch with transactCommitments := batch.transactCommitments ++ rows }
  | .shield treeNumber startPosition commitments ciphertexts =>
      ingestShieldCommitments batch log treeNumber startPosition commitments ciphertexts
  | .legacyShield treeNumber startPosition commitments ciphertexts =>
      ingestShieldCommitments batch log treeNumber startPosition commitments ciphertexts
  | .nullifiers treeNumber nullifier => do
      let treeNumber ← uintTo u32Bound treeNumber
      let source ← sourceFromLog log
      pure { batch with nullifiers := batch.nullifiers ++ nullifierRows treeNumber source nullifier }
  | .nullified treeNumber nullifier => do
      let source ← sourceFromLog log
      pure { batch with
        nullifiers := batch.nullifiers ++ nullifierRows treeNumber.val source nullifier }
  | .action txconfigs => do
      let source ← sourceFromLog log
      pure { batch with actions := batch.actions ++ [⟨txconfigs, source⟩] }
  | .unshield unshield => do
      let source ← sourceFromLog log
      pure { batch with unshields := batch.unshields ++ [⟨unshield, source⟩] }
  | .commitmentBatch treeNumber startPosition hash ciphertext => do
      let treeNumber ← uintTo u32Bound treeNumber
      let startPosition ← uintTo u64Bound startPosition
      let source ← sourceFromLog log
      let rows ← legacyEncryptedRows treeNumber startPosition hash ciphertext source
      pure { batch with legacyEncryptedCommitments := batch.legacyEncryptedCommitments ++ rows }
  | .generatedCommitmentBatch treeNumber startPosition commitments encryptedRandom => do
      let treeNumber ← uintTo u32Bound treeNumber
      let startPosition ← uintTo u64Bound startPosition
      let source ← sourceFromLog log
      let rows ← legacyGeneratedRows treeNumber startPosition commitments encryptedRandom source
      pure { batch with legacyGeneratedCommitments := batch.legacyGeneratedCommitments ++ rows }
  | .undecodable => .error .decode
  | .other => .ok batch

def ingestChainLogs (logs : List Log) : Except ChainLogIngestionError IndexedLogBatch :=
  logs.foldlM ingestLog {}

end RailgunIndexer
