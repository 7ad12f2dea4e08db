import PrecompileHost.Word

/-!
Lowercase hexadecimal text: the digits of a byte string, and addresses and words at their full
width behind 0x.
-/

namespace PrecompileHost

namespace Hex

/-- The digit of a value below 16. -/
def digit (n : Nat) : Char :=
  if n < 10 then Char.ofNat ('0'.toNat + n) else Char.ofNat ('a'.toNat + (n - 10))

def ofByte (b : UInt8) : List Char :=
  [digit (b.toNat / 16), digit (b.toNat % 16)]

def ofBytes (bytes : Bytes) : List Char :=
  bytes.flatMap ofByte

end Hex

/-- The digits of a byte string behind 0x. -/
def Bytes.text (bytes : Bytes) : String :=
  "0x" ++ String.ofList (Hex.ofBytes bytes)

def Address.text (a : Address) : String :=
  Bytes.text (Word.lowBytes 20 a.toNat)

def Word.text (w : Word) : String :=
  Bytes.text w.toBytes

/-- The decimal digits of a word. -/
def Word.decimal (w : Word) : String :=
  toString w.toNat

end PrecompileHost
