import PrecompileHost.Frame
import PrecompileHost.Text.Blank
import PrecompileHost.Text.Encoded

/-!
The depth limit of calls as a setting: decimal digits, possibly behind one plus sign, between
blanks.
-/

namespace PrecompileHost.Config

inductive DepthError
  | empty
  | invalidDigit
  | tooLarge
  deriving DecidableEq

def DepthError.message : DepthError → String
  | .empty => "cannot parse integer from empty string"
  | .invalidDigit => "invalid digit found in string"
  | .tooLarge => "number too large to fit in target type"

/-- The environment variable that holds the limit. -/
def depthVariable : String := "EV_MAX_CALL_DEPTH"

inductive DepthSettingError
  | missing
  | blank
  | invalid (error : DepthError)
  deriving DecidableEq

def DepthSettingError.message : DepthSettingError → String
  | .missing => "environment variable " ++ depthVariable ++ " is not set"
  | .blank => "environment variable " ++ depthVariable ++ " is empty"
  | .invalid e => "invalid max call depth: " ++ e.message

/-- Reads decimal digits after others that denote `value`; a number that has grown too large is
noticed before what follows it. -/
def readDepthDigits (value : Nat) : List Char → Except DepthError Nat
  | [] => .ok value
  | c :: rest =>
    if c.isDigit then
      let value := value * 10 + (c.toNat - '0'.toNat)
      if value < CallContext.depthLimit then readDepthDigits value rest else .error .tooLarge
    else .error .invalidDigit

/-- Reads an unsigned number; a sign alone is not one. -/
def readDepthNumber : List Char → Except DepthError Nat
  | [] => .error .empty
  | ['+'] => .error .invalidDigit
  | '+' :: digits => readDepthDigits 0 digits
  | digits => readDepthDigits 0 digits

def parseDepth (text : List Char) : Except DepthError Nat :=
  readDepthNumber (Text.trim text)

/-- The limit in an environment variable's bytes. Bytes that are no text count as not set. -/
def depthFromEnv (value : Option Bytes) : Except DepthSettingError Nat :=
  match value.bind Text.ofUTF8? with
  | none => .error .missing
  | some text =>
    if Text.trim text = [] then .error .blank
    else (parseDepth text).mapError .invalid

def depthFromEnvOrDefault (value : Option Bytes) : Except DepthSettingError Nat :=
  match depthFromEnv value with
  | .error .missing => .ok CallContext.defaultMaxDepth
  | other => other

end PrecompileHost.Config
