/-!
The four call instructions through which an account can be reached.
-/

namespace PrecompileHost

inductive CallType
  | call
  | callCode
  | delegateCall
  | staticCall
  deriving DecidableEq, Repr

namespace CallType

/-- All call types, by ascending opcode. -/
def all : List CallType :=
  [.call, .callCode, .delegateCall, .staticCall]

def opcode : CallType → UInt8
  | .call => 0xf1
  | .callCode => 0xf2
  | .delegateCall => 0xf4
  | .staticCall => 0xfa

/-- The instruction's mnemonic. -/
def name : CallType → String
  | .call => "CALL"
  | .callCode => "CALLCODE"
  | .delegateCall => "DELEGATECALL"
  | .staticCall => "STATICCALL"

def ofName? (name : String) : Option CallType :=
  all.find? (·.name = name)

/-- Only a static call makes state read-only. -/
def readOnly : CallType → Bool
  | .staticCall => true
  | .call | .callCode | .delegateCall => false

/-- Whether the instruction has a value among its operands. -/
def carriesValue : CallType → Bool
  | .call | .callCode => true
  | .delegateCall | .staticCall => false

def ofOpcode? (byte : UInt8) : Option CallType :=
  all.find? (·.opcode = byte)

end CallType

/-- A byte that is the opcode of no call type. -/
structure InvalidCallType where
  byte : UInt8
  deriving DecidableEq

namespace InvalidCallType

def message (e : InvalidCallType) : String :=
  "Unknown CallType(" ++ toString e.byte.toNat ++ ")"

/-- The designated invalid instruction stands in for it. -/
def opcode (_ : InvalidCallType) : UInt8 :=
  0xfe

def opcodeName (_ : InvalidCallType) : String :=
  "INVALID"

end InvalidCallType

/-- Reads an opcode as a call type. -/
def CallType.ofOpcode (byte : UInt8) : Except InvalidCallType CallType :=
  match ofOpcode? byte with
  | some t => .ok t
  | none => .error ⟨byte⟩

end PrecompileHost
