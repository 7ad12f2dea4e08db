import PrecompileHost.Text.Encoded

/-!
Amounts as text: digits in base 10, or in base 16, 8 or 2 behind 0x, 0o or 0b. Underscores may
stand anywhere among the digits, and no digits at all denote zero.

Decimal digits are read from the left and their value is checked every 19 digits and at the end;
digits of the other bases are read from the right. The fault that is met first is reported.
-/

namespace PrecompileHost

inductive AmountTextError
  | invalidDigit (byte : UInt8)
  | tooLarge
  deriving DecidableEq

def AmountTextError.message : AmountTextError → String
  | .invalidDigit byte => "invalid digit: " ++ (Text.latin1 byte).toString
  | .tooLarge => "the value is too large to fit the target type"

namespace AmountText

def underscore : UInt8 := 95

/-- The value of a digit or letter; letters of either case follow the digits. -/
def alphanumericValue? (b : UInt8) : Option Nat :=
  let n := b.toNat
  if 48 ≤ n && n ≤ 57 then some (n - 48)
  else if 97 ≤ n && n ≤ 122 then some (n - 87)
  else if 65 ≤ n && n ≤ 90 then some (n - 55)
  else none

def digitOf (radix : Nat) (b : UInt8) : Except AmountTextError Nat :=
  match alphanumericValue? b with
  | some d => if d < radix then .ok d else .error (.invalidDigit b)
  | none => .error (.invalidDigit b)

/-- How many decimal digits are read before their value is checked. -/
def chunk : Nat := 19

/-- Reads decimal digits from the left, after `count` others that denote `value`. -/
def readDecimal (count value : Nat) : Bytes → Except AmountTextError Nat
  | [] => if value < Word.size then .ok value else .error .tooLarge
  | b :: rest =>
    match digitOf 10 b with
    | .error e => .error e
    | .ok d =>
      let value := value * 10 + d
      if (count + 1) % chunk = 0 && Word.size ≤ value then .error .tooLarge
      else readDecimal (count + 1) value rest

/-- Reads digits from the right, of which the first has the given weight; the digits to the right
of them denote `value`. -/
def readFromRight (radix weight value : Nat) : Bytes → Except AmountTextError Nat
  | [] => .ok value
  | b :: rest =>
    match digitOf radix b with
    | .error e => .error e
    | .ok d =>
      let value := value + d * weight
      if Word.size ≤ value then .error .tooLarge
      else readFromRight radix (weight * radix) value rest

def readRadix (radix : Nat) (digits : Bytes) : Except AmountTextError Nat :=
  readFromRight radix 1 0 digits.reverse

/-- Reads an amount in the base that its mark names. -/
def readMarked : List Char → Except AmountTextError Nat
  | '0' :: 'x' :: rest | '0' :: 'X' :: rest => readRadix 16 (digits rest)
  | '0' :: 'o' :: rest | '0' :: 'O' :: rest => readRadix 8 (digits rest)
  | '0' :: 'b' :: rest | '0' :: 'B' :: rest => readRadix 2 (digits rest)
  | text => readDecimal 0 0 (digits text)
where
  digits (text : List Char) : Bytes :=
    (Text.utf8 text).filter (· ≠ underscore)

end AmountText

def Word.ofText (text : List Char) : Except AmountTextError Word :=
  (AmountText.readMarked text).map (BitVec.ofNat 256)

end PrecompileHost
