/-
# Bytes in hexadecimal

The three ways in which messages write a byte: two capital digits, two small
digits, or as few capital digits as possible.  A byte string is written with two
small digits a byte.
-/

import RemoteTerminal.Bytes

namespace RemoteTerminal
namespace Hexadecimal

/-- The digit of a value below sixteen. -/
def digit (capital : Bool) (value : Nat) : Char :=
  if value < 10 then Char.ofNat (48 + value)
  else Char.ofNat ((if capital then 55 else 87) + value)

/-- A byte in exactly two digits. -/
def pair (capital : Bool) (byte : UInt8) : String :=
  String.ofList [digit capital (byte.toNat / 16), digit capital (byte.toNat % 16)]

/-- A byte in capital digits without a leading zero. -/
def short (byte : UInt8) : String :=
  if byte.toNat < 16 then String.ofList [digit true byte.toNat] else pair true byte

/-- A byte string in small digits. -/
def text (data : Bytes) : String := String.join (data.map (pair false))

/-- The value of a digit, small or capital. -/
def value? (c : Char) : Option Nat :=
  if c.isDigit then some (c.toNat - 48)
  else if 'a' ≤ c ∧ c ≤ 'f' then some (c.toNat - 87)
  else if 'A' ≤ c ∧ c ≤ 'F' then some (c.toNat - 55)
  else none

/-- The byte string that pairs of digits write. -/
def bytes? : List Char → Option Bytes
  | [] => some []
  | [_] => none
  | a :: b :: rest => do
    let high ← value? a
    let low ← value? b
    return UInt8.ofNat (high * 16 + low) :: (← bytes? rest)

end Hexadecimal
end RemoteTerminal
