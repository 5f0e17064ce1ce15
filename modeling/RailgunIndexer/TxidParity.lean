import RailgunIndexer.PublicTxid
import RailgunIndexer.Lib.Cursor

/-!
# The TXID parity verifier

A verification tool fetches the published public TXID chunks, reads their rows back and compares them
with another source. It has its own reader of the record layout.
-/

namespace RailgunIndexer

open Lib Cursor

structure TxidRow where
  txidIndex : Nat
  id : String
  blockNumber : Nat
  blockTimestamp : Nat
  transactionHash : Bytes32
  nullifiers : List Bytes32
  commitments : List Bytes32
  boundParamsHash : Bytes32
  hasUnshield : Bool
  utxoTreeIn : Nat
  utxoTreeOut : Nat
  utxoBatchStartPositionOut : Nat
  deriving DecidableEq

inductive TxidParityError where
  | notPublicTxidChunk
  | recordSectionMissing
  | unexpectedEnd
  | invalidUtf8
  | trailingBytes (count : Nat)
  deriving DecidableEq

abbrev TxidReader (α : Type) := Reader TxidParityError α

/-! ### The cursor -/

def readInteger (width : Nat) : TxidReader Nat := do
  let bytes ← readExact .unexpectedEnd width
  pure (littleEndian bytes)

def readU8 : TxidReader Nat := readInteger 1

def readU16 : TxidReader Nat := readInteger 2

def readU32 : TxidReader Nat := readInteger 4

def readU64 : TxidReader Nat := readInteger 8

def fromUtf8 (bytes : Bytes) : TxidReader String :=
  match String.fromUTF8? ⟨bytes.toArray⟩ with
  | some text => pure text
  | none => throw .invalidUtf8

def readString : TxidReader String := do
  let length ← readU16
  let bytes ← readExact .unexpectedEnd length
  fromUtf8 bytes

def readFixed32 : TxidReader Bytes32 := do
  let bytes ← readExact .unexpectedEnd 32
  pure (FixedBytes.ofNat (bigEndian bytes))

def readFixedVec : TxidReader (List Bytes32) := do
  let count ← readU32
  readMany readFixed32 count

/-! ### Rows -/

/-- The block hash and the log indexes are read and not kept. -/
def readTxidRow : TxidReader TxidRow := do
  let txidIndex ← readU64
  let id ← readString
  let blockNumber ← readU64
  let blockTimestamp ← readU64
  let _ ← readFixed32
  let transactionHash ← readFixed32
  let _ ← readU64
  let _ ← readU64
  let nullifiers ← readFixedVec
  let commitments ← readFixedVec
  let boundParamsHash ← readFixed32
  let hasUnshield ← readU8
  let utxoTreeIn ← readU64
  let utxoTreeOut ← readU64
  let utxoBatchStartPositionOut ← readU64
  pure
    { txidIndex, id, blockNumber, blockTimestamp, transactionHash, nullifiers, commitments,
      boundParamsHash, hasUnshield := hasUnshield ≠ 0, utxoTreeIn, utxoTreeOut,
      utxoBatchStartPositionOut }

def readTxidRows (rowCount : Nat) (payload : Bytes) : Except TxidParityError (List TxidRow) := do
  let (rows, cursor) ← readMany readTxidRow rowCount ⟨payload, 0⟩
  if cursor.remaining ≠ 0 then .error (.trailingBytes cursor.remaining) else pure rows

/-- The lookup of a section's bytes is the library's. -/
def parsePublicTxidPayload (sectionPayload : ChunkEnvelope → Nat → Option Bytes)
    (envelope : ChunkEnvelope) (descriptor : IndexedArtifactDescriptor) :
    Except TxidParityError (List TxidRow) :=
  if descriptor.datasetKind ≠ .publicTxid ∨ descriptor.range.kind ≠ .txidIndex then
    .error .notPublicTxidChunk
  else
    match sectionPayload envelope 1 with
    | none => .error .recordSectionMissing
    | some payload => readTxidRows descriptor.rowCount payload

end RailgunIndexer
