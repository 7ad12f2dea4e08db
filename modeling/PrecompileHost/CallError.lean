import PrecompileHost.Word

/-!
The ways a call fails. The last two cannot arise from what a contract does; they are defects of
whoever drives the calls.
-/

namespace PrecompileHost

inductive CallError
  | outOfGas
  | writeProtection
  | callDepthExceeded
  | insufficientBalance
  | reverted (data : Bytes)
  | headerUnavailable
  | other (text : String)
  | statefulWithoutFrame
  | delegateWithoutFrame
  deriving DecidableEq

/-- What a call returns: its output, or why it failed. -/
abbrev CallResult := Except CallError Bytes

namespace CallError

/-- A revert is the one failure that gives the caller its unused gas back. -/
def isRevert : CallError → Bool
  | .reverted _ => true
  | _ => false

def isFatal : CallError → Bool
  | .statefulWithoutFrame | .delegateWithoutFrame => true
  | _ => false

def message : CallError → String
  | .outOfGas => "out of gas"
  | .writeProtection => "write protection"
  | .callDepthExceeded => "max call depth exceeded"
  | .insufficientBalance => "insufficient balance for transfer"
  | .reverted _ => "execution reverted"
  | .headerUnavailable => "block header unavailable"
  | .other text => text
  | .statefulWithoutFrame =>
    "BUG: call to stateless entry point of a stateful precompile; " ++
      "MUST dispatch through the environment"
  | .delegateWithoutFrame => "BUG: DELEGATECALL resolved without a caller frame"

end CallError

end PrecompileHost
