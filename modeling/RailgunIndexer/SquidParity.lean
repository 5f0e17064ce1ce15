import RailgunIndexer.MerkleCheckpointChunk
import RailgunIndexer.Lib.Cursor

/-!
# The Squid parity verifier

A verification tool fetches the published wallet-scan, commitment and checkpoint chunks, reads their
rows back and compares them with the rows of another indexer. It has its own readers of the layouts.
-/

namespace RailgunIndexer

namespace SquidParity

open Lib Cursor

inductive ParityError where
  | unexpectedEof
  | trailingBytes (label : String) (count : Nat)
  | undecodableCiphertext
  | sectionOutsidePayload
  | unknownSection (sectionId : Nat)
  | rowCountMismatch
  | root (error : MerkleRootError)
  | rootMismatch (cid : String)
  deriving DecidableEq

abbrev ParityReader (α : Type) := Reader ParityError α

/-! ### The cursor -/

def readU8 : ParityReader Nat := readLittleEndian .unexpectedEof 1

def readU32 : ParityReader Nat := readLittleEndian .unexpectedEof 4

def readU64 : ParityReader Nat := readLittleEndian .unexpectedEof 8

def readFixed32 : ParityReader Bytes32 := do
  let bytes ← readExact .unexpectedEof 32
  pure (FixedBytes.ofNat (bigEndian bytes))

/-- The 64 bytes are kept as two words. -/
def readFixed64 : ParityReader (U256 × U256) := do
  let first ← readFixed32
  let second ← readFixed32
  pure (first, second)

def readBytes : ParityReader Bytes := do
  let length ← readU32
  readExact .unexpectedEof length

def expectEnd (label : String) (cursor : Cursor) : Except ParityError Unit :=
  if cursor.position ≠ cursor.bytes.length then
    .error (.trailingBytes label (cursor.bytes.length - cursor.position))
  else
    .ok ()

def readRows {ρ : Type} (read : ParityReader ρ) : ParityReader (List ρ) := do
  let count ← readU64
  readMany read count

/-! ### Commitments -/

structure CommitmentRow where
  globalPosition : Nat
  blockNumber : Nat
  treeNumber : Nat
  treePosition : Nat
  hash : Bytes32
  deriving DecidableEq

/-- The family is read and not kept. -/
def readCommitmentRow : ParityReader CommitmentRow := do
  let globalPosition ← readU64
  let blockNumber ← readU64
  let _ ← readU8
  let treeNumber ← readU32
  let treePosition ← readU64
  let hash ← readFixed32
  pure { globalPosition, blockNumber, treeNumber, treePosition, hash }

def parseCommitmentPayload (envelope : ChunkEnvelope) : Except ParityError (List CommitmentRow) := do
  let (rows, cursor) ← readRows readCommitmentRow ⟨envelope.payload, 0⟩
  expectEnd "commitment payload" cursor
  if rows.length ≠ envelope.rowCount then .error .rowCountMismatch else pure rows

/-! ### Checkpoints -/

structure CheckpointArtifact where
  descriptor : IndexedArtifactDescriptor
  treeNumber : Nat
  leafCount : Nat
  root : Bytes32
  lastIndexedBlock : Nat
  leaves : List Bytes32
  deriving DecidableEq

def readCheckpoint (descriptor : IndexedArtifactDescriptor) : ParityReader CheckpointArtifact := do
  let treeNumber ← readU32
  let leafCount ← readU64
  let root ← readFixed32
  let lastIndexedBlock ← readU64
  let leaves ← readMany readFixed32 leafCount
  pure { descriptor, treeNumber, leafCount, root, lastIndexedBlock, leaves }

def parseMerkleCheckpointPayload (trees : TreeLibrary) (descriptor : IndexedArtifactDescriptor)
    (envelope : ChunkEnvelope) : Except ParityError CheckpointArtifact := do
  let (artifact, cursor) ← readCheckpoint descriptor ⟨envelope.payload, 0⟩
  expectEnd "merkle checkpoint payload" cursor
  let computed ← (merkleRoot trees artifact.leaves).mapError .root
  if computed ≠ artifact.root then .error (.rootMismatch descriptor.cid) else pure artifact

/-! ### Wallet-scan rows -/

structure WalletKey where
  blockNumber : Nat
  transactionHash : Bytes32
  treeNumber : Nat
  treePosition : Option Nat
  value : Bytes32
  deriving DecidableEq

/-- What the other indexer has of a ciphertext as well. -/
structure TransactCiphertextOverlap where
  ciphertext : Vector Bytes32 4
  blindedSenderViewingKey : Bytes32
  memo : Bytes
  deriving DecidableEq

structure TransactWalletRow where
  key : WalletKey
  blockTimestamp : Option Nat
  ciphertext : Option TransactCiphertextOverlap
  deriving DecidableEq

structure ShieldWalletRow where
  key : WalletKey
  blockTimestamp : Option Nat
  preimage : Bytes
  shieldCiphertext : Bytes
  deriving DecidableEq

structure NullifierWalletRow where
  key : WalletKey
  blockTimestamp : Option Nat
  deriving DecidableEq

structure LegacyEncryptedWalletRow where
  key : WalletKey
  blockTimestamp : Option Nat
  ciphertext : Bytes
  deriving DecidableEq

structure LegacyGeneratedWalletRow where
  key : WalletKey
  blockTimestamp : Option Nat
  preimage : Bytes
  encryptedRandom : U256 × U256
  deriving DecidableEq

structure WalletArtifacts where
  transact : List TransactWalletRow := []
  shield : List ShieldWalletRow := []
  nullifiers : List NullifierWalletRow := []
  legacyEncrypted : List LegacyEncryptedWalletRow := []
  legacyGenerated : List LegacyGeneratedWalletRow := []
  deriving DecidableEq

structure SourceSubset where
  blockNumber : Nat
  blockTimestamp : Option Nat
  transactionHash : Bytes32
  deriving DecidableEq

def readSource : ParityReader SourceSubset := do
  let blockNumber ← readU64
  let blockTimestamp ← readU64
  let transactionHash ← readFixed32
  pure { blockNumber, blockTimestamp := some blockTimestamp, transactionHash }

def SourceSubset.key (source : SourceSubset) (treeNumber : Nat) (treePosition : Option Nat)
    (value : Bytes32) : WalletKey where
  blockNumber := source.blockNumber
  transactionHash := source.transactionHash
  treeNumber
  treePosition
  value

section Sections

variable (decodeCiphertext : Bytes → Option TransactCiphertextOverlap)

/-- The ABI decoder is taken as far as the tool uses what it returns. -/
def parseTransactCiphertextOverlap (bytes : Bytes) : ParityReader TransactCiphertextOverlap :=
  match decodeCiphertext bytes with
  | some overlap => pure overlap
  | none => throw .undecodableCiphertext

def readTransactRow : ParityReader TransactWalletRow := do
  let source ← readSource
  let treeNumber ← readU32
  let treePosition ← readU64
  let hash ← readFixed32
  let ciphertextBytes ← readBytes
  let ciphertext ← parseTransactCiphertextOverlap decodeCiphertext ciphertextBytes
  pure
    { key := source.key treeNumber (some treePosition) hash
      blockTimestamp := source.blockTimestamp
      ciphertext := some ciphertext }

def readShieldRow : ParityReader ShieldWalletRow := do
  let source ← readSource
  let treeNumber ← readU32
  let treePosition ← readU64
  let hash ← readFixed32
  let preimage ← readBytes
  let shieldCiphertext ← readBytes
  pure
    { key := source.key treeNumber (some treePosition) hash
      blockTimestamp := source.blockTimestamp
      preimage
      shieldCiphertext }

def readNullifierRow : ParityReader NullifierWalletRow := do
  let source ← readSource
  let treeNumber ← readU32
  let nullifier ← readFixed32
  pure
    { key := source.key treeNumber none nullifier
      blockTimestamp := source.blockTimestamp }

def readLegacyEncryptedRow : ParityReader LegacyEncryptedWalletRow := do
  let source ← readSource
  let treeNumber ← readU32
  let treePosition ← readU64
  let hash ← readFixed32
  let ciphertext ← readBytes
  pure
    { key := source.key treeNumber (some treePosition) hash
      blockTimestamp := source.blockTimestamp
      ciphertext }

def readLegacyGeneratedRow : ParityReader LegacyGeneratedWalletRow := do
  let source ← readSource
  let treeNumber ← readU32
  let treePosition ← readU64
  let hash ← readFixed32
  let preimage ← readBytes
  let encryptedRandom ← readFixed64
  pure
    { key := source.key treeNumber (some treePosition) hash
      blockTimestamp := source.blockTimestamp
      preimage
      encryptedRandom }

/-! ### Wallet-scan sections -/

def walletTransactSectionId : Nat := 1

def walletShieldSectionId : Nat := 2

def walletNullifierSectionId : Nat := 3

def walletLegacyEncryptedSectionId : Nat := 4

def walletLegacyGeneratedSectionId : Nat := 5

/-- The rows of one section in the place of those of its table. -/
def readWalletSection (wallet : WalletArtifacts) (sectionId : Nat) : ParityReader WalletArtifacts :=
  if sectionId = walletTransactSectionId then do
    let transact ← readRows (readTransactRow decodeCiphertext)
    pure { wallet with transact }
  else if sectionId = walletShieldSectionId then do
    let shield ← readRows readShieldRow
    pure { wallet with shield }
  else if sectionId = walletNullifierSectionId then do
    let nullifiers ← readRows readNullifierRow
    pure { wallet with nullifiers }
  else if sectionId = walletLegacyEncryptedSectionId then do
    let legacyEncrypted ← readRows readLegacyEncryptedRow
    pure { wallet with legacyEncrypted }
  else if sectionId = walletLegacyGeneratedSectionId then do
    let legacyGenerated ← readRows readLegacyGeneratedRow
    pure { wallet with legacyGenerated }
  else
    throw (.unknownSection sectionId)

def parseWalletSection (payload : Bytes) (wallet : WalletArtifacts) (found : ChunkSection) :
    Except ParityError WalletArtifacts :=
  if payload.length < found.offset + found.byteLength then
    .error .sectionOutsidePayload
  else do
    let (wallet, cursor) ← readWalletSection decodeCiphertext wallet found.sectionId
      ⟨(payload.drop found.offset).take found.byteLength, 0⟩
    expectEnd "wallet section" cursor
    pure wallet

def parseWalletPayload (envelope : ChunkEnvelope) : Except ParityError WalletArtifacts :=
  envelope.sections.foldlM (parseWalletSection decodeCiphertext envelope.payload) {}

end Sections

end SquidParity

end RailgunIndexer
