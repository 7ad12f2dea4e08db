import PrecompileHost.Text.Hex

/-!
A character between single quotes. Quote and backslash are escaped, and so is what does not show:
control characters, the no-break space and the soft hyphen. Only the first 256 characters are
told apart in this way.
-/

namespace PrecompileHost.Text

/-- Whether a character below 256 does not show on its own. -/
def isUnseen (c : Char) : Bool :=
  let n := c.toNat
  n < 0x20 || (0x7f ≤ n && n ≤ 0xa0) || n == 0xad

/-- The hexadecimal digits of a number below 256, without a leading zero. -/
def shortHex (n : Nat) : List Char :=
  if n < 16 then [Hex.digit n] else [Hex.digit (n / 16), Hex.digit (n % 16)]

def escape (c : Char) : List Char :=
  match c with
  | '\x00' => ['\\', '0']
  | '\t' => ['\\', 't']
  | '\n' => ['\\', 'n']
  | '\r' => ['\\', 'r']
  | '\'' => ['\\', '\'']
  | '\\' => ['\\', '\\']
  | c => if isUnseen c then "\\u\x7b".toList ++ shortHex c.toNat ++ ['\x7d'] else [c]

def quoted (c : Char) : String :=
  "'" ++ String.ofList (escape c) ++ "'"

end PrecompileHost.Text
