import Mathlib.Data.String.Basic

/-!
# Hexadecimal digits

Bytes as strings of two digits each, and back.
-/

namespace Lib.Hex

def digits : List Char :=
  ['0', '1', '2', '3', '4', '5', '6', '7', '8', '9', 'a', 'b', 'c', 'd', 'e', 'f']

def digit (value : Nat) : Char := digits.getD value '0'

def encodeByte (byte : UInt8) : List Char := [digit (byte.toNat / 16), digit (byte.toNat % 16)]

def encode (bytes : List UInt8) : String := String.ofList (bytes.flatMap encodeByte)

def decodeDigits : List Char → Option (List UInt8)
  | [] => some []
  | [_] => none
  | high :: low :: rest => do
      let high ← digits.idxOf? high
      let low ← digits.idxOf? low
      let bytes ← decodeDigits rest
      pure (UInt8.ofNat (16 * high + low) :: bytes)

def decode (value : String) : Option (List UInt8) := decodeDigits value.toList

theorem idxOf?_digit : ∀ value, value < 16 → digits.idxOf? (digit value) = some value := by
  decide

theorem digit_ne_marker : ∀ value, value < 16 → digit value ≠ 'x' := by
  decide

theorem decodeDigits_encodeByte (byte : UInt8) (rest : List Char) :
    decodeDigits (encodeByte byte ++ rest) = (decodeDigits rest).map (byte :: ·) := by
  have hbound := byte.toNat_lt
  have hvalue : UInt8.ofNat (16 * (byte.toNat / 16) + byte.toNat % 16) = byte := by
    rw [Nat.div_add_mod, UInt8.ofNat_toNat]
  rw [encodeByte, List.cons_append, List.cons_append, List.nil_append, decodeDigits,
    idxOf?_digit _ (by omega), idxOf?_digit _ (by omega)]
  cases decodeDigits rest with
  | none => rfl
  | some bytes => exact congrArg (fun first => some (first :: bytes)) hvalue

theorem decode_encode (bytes : List UInt8) : decode (encode bytes) = some bytes := by
  rw [decode, encode, String.toList_ofList]
  induction bytes with
  | nil => rfl
  | cons byte bytes ih => rw [List.flatMap_cons, decodeDigits_encodeByte, ih, Option.map_some]

theorem encode_ne_marked (bytes : List UInt8) (rest : List Char) :
    (encode bytes).toList ≠ '0' :: 'x' :: rest := by
  rw [encode, String.toList_ofList]
  cases bytes with
  | nil => simp
  | cons byte bytes =>
      intro hsame
      exact digit_ne_marker _ (by omega) (List.cons.inj (List.cons.inj hsame).2).1

end Lib.Hex
