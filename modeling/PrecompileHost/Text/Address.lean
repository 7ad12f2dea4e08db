import PrecompileHost.Text.Encoded
import PrecompileHost.Text.Quoted

/-!
Addresses as text: 40 hexadecimal digits of either case, with or without 0x in front.
-/

namespace PrecompileHost

/-- Positions count bytes after the mark 0x. -/
inductive AddressTextError
  | oddLength
  | wrongLength
  | invalidCharacter (byte : UInt8) (position : Nat)
  deriving DecidableEq

def AddressTextError.message : AddressTextError → String
  | .oddLength => "odd number of digits"
  | .wrongLength => "invalid string length"
  | .invalidCharacter byte position =>
    "invalid character " ++ Text.quoted (Text.latin1 byte) ++ " at position " ++
      toString position

namespace Hex

/-- The value of a digit of either case. -/
def value? (b : UInt8) : Option Nat :=
  let n := b.toNat
  if 48 ≤ n && n ≤ 57 then some (n - 48)
  else if 97 ≤ n && n ≤ 102 then some (n - 87)
  else if 65 ≤ n && n ≤ 70 then some (n - 55)
  else none

/-- Reads digits after `position` others that denote `value`. -/
def readDigits (position value : Nat) : Bytes → Except AddressTextError Nat
  | [] => .ok value
  | b :: rest =>
    match value? b with
    | some d => readDigits (position + 1) (value * 16 + d) rest
    | none => .error (.invalidCharacter b position)

/-- Drops one mark 0x or 0X. -/
def dropMark : Bytes → Bytes
  | 48 :: 120 :: rest => rest
  | 48 :: 88 :: rest => rest
  | bytes => bytes

end Hex

/-- Reads an address. The length is checked before the digits. -/
def Address.ofText (text : List Char) : Except AddressTextError Address :=
  let bytes := Hex.dropMark (Text.utf8 text)
  if bytes.length % 2 = 1 then .error .oddLength
  else if bytes.length ≠ 40 then .error .wrongLength
  else (Hex.readDigits 0 0 bytes).map (BitVec.ofNat 160)

end PrecompileHost
