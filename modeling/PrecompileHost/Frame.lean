import PrecompileHost.CallType
import PrecompileHost.CallError

/-!
Who a call runs as. A request names the call type, the caller and the target; the frame that it
opens executes under the identity that contract code would have there: its own account, the
account it sees as its caller, and the value it sees as sent.
-/

namespace PrecompileHost

/-- The identity of an executing frame, with the gas it has left. -/
structure Contract where
  caller : Address
  address : Address
  value : Word
  gas : Gas
  isDelegate : Bool := false
  deriving DecidableEq, Inhabited

namespace Contract

/-- The contract executing on behalf of `parent`: it keeps its own account and inherits the
caller and the value. -/
def delegateOf (c parent : Contract) : Contract :=
  { c with caller := parent.caller, value := parent.value, isDelegate := true }

/-- Spends gas, unless there is too little. -/
def useGas? (c : Contract) (amount : Gas) : Option Contract :=
  (Gas.sub? c.gas amount).map fun gas => { c with gas }

end Contract

/-- Who makes a call: an account on its own, or a frame whose identity can be inherited. -/
inductive Caller
  | account (a : Address)
  | frame (c : Contract)
  deriving DecidableEq

namespace Caller

def address : Caller → Address
  | .account a => a
  | .frame c => c.address

def frame? : Caller → Option Contract
  | .account _ => none
  | .frame c => some c

end Caller

/-- A call as it is asked for. The value of a call type that carries none is ignored. -/
structure Request where
  callType : CallType
  caller : Caller
  target : Address
  input : Bytes
  gas : Gas
  value : Word
  deriving DecidableEq

/-- An executing frame: its identity, and the call that opened it. Its gas is that at the
start. -/
structure Frame where
  contract : Contract
  callType : CallType
  rawCaller : Address
  rawSelf : Address
  deriving DecidableEq

namespace Request

/-- The value that the call moves or shows. -/
def carriedValue (r : Request) : Word :=
  if r.callType.carriesValue then r.value else 0

/-- The identity that the call executes under; a delegate call inherits it, and has none when
its caller is not a frame. -/
def contract? (r : Request) : Option Contract :=
  let caller := r.caller.address
  match r.callType with
  | .call => some { caller, address := r.target, value := r.value, gas := r.gas }
  | .staticCall => some { caller, address := r.target, value := 0, gas := r.gas }
  | .callCode => some { caller, address := caller, value := r.value, gas := r.gas }
  | .delegateCall =>
    r.caller.frame?.map
      (Contract.delegateOf { caller, address := caller, value := 0, gas := r.gas })

def frame? (r : Request) : Option Frame :=
  r.contract?.map fun contract =>
    { contract, callType := r.callType, rawCaller := r.caller.address, rawSelf := r.target }

end Request

/-- How deep a call is made, and whether state may be written there. -/
structure CallContext where
  depth : Nat := 0
  readOnly : Bool := false
  deriving DecidableEq, Repr

/-- The context of a frame opened in context `c`: one deeper, and read-only from the first
static call on. -/
def CallContext.enter (c : CallContext) (t : CallType) : CallContext :=
  { depth := c.depth + 1, readOnly := c.readOnly || t.readOnly }

/-- Depths are counted in 64 bits. -/
def CallContext.depthLimit : Nat := UInt64.size

/-- The depth above which calls are refused, unless set otherwise. -/
def CallContext.defaultMaxDepth : Nat := 1024

end PrecompileHost
