import PrecompileHost.Program
import PrecompileHost.Text.Hex

/-!
The transcript of an executing frame: each operation with its answer and each nested call with
its own transcript, in order. The log is one view of it.
-/

namespace PrecompileHost

/-- How an execution ends: it returns, or it is abandoned. -/
inductive Ending (α : Type)
  | returned (value : α)
  | aborted (message : String)
  deriving DecidableEq

structure Outcome where
  result : CallResult
  gasLeft : Gas

/-- What became of a call. -/
inductive Handling
  /-- Refused: made above the depth limit. -/
  | tooDeep
  /-- Refused: the caller's balance is below the value. -/
  | unfunded
  /-- Failed: the target's balance has no room for the value. -/
  | overfull
  /-- Nothing runs at the target. -/
  | codeless
  /-- Failed: the gas does not cover the price. -/
  | underpaid (price : Gas)
  | stateless (price : Gas)
  /-- Failed: a delegate call that no frame made. -/
  | parentless
  /-- Aborted: the depth of the frame could not be counted. -/
  | uncountable
  | entered (frame : Frame)
  deriving DecidableEq

/-- A dispatched call: what was asked and where, what became of it, the state that the callee
found and the one that it left, and how the call ended. -/
structure CallRecord where
  request : Request
  context : CallContext
  handling : Handling
  found : State
  left : State
  ending : Ending Outcome

inductive Trace
  | done
  | performed (operation : Operation) (answer : operation.Answer) (rest : Trace)
  /-- A nested call that the frame was not allowed to make. -/
  | declined (call : NestedCall) (error : CallError) (rest : Trace)
  | called (call : CallRecord) (body rest : Trace)

namespace CallRecord

def callFields (r : CallRecord) : List (String × String) :=
  [("address", r.request.target.text), ("call_type", r.request.callType.name)]

def refusalEvent (r : CallRecord) : Event :=
  { level := .debug
    target := "ev_dispatch::evm"
    message := "Refusing call above max depth"
    fields := ("depth", toString r.context.depth) :: r.callFields }

def dispatchEvent (r : CallRecord) : Event :=
  { level := .trace
    target := "ev_dispatch::evm"
    message := "Dispatching call"
    fields :=
      ("from", r.request.caller.address.text) :: r.callFields ++
        [("gas", toString r.request.gas.toNat), ("depth", toString r.context.depth)] }

end CallRecord

/-- Reported when a stateful precompile is about to run. -/
def Request.frameEvent (r : Request) : Event :=
  { level := .trace
    target := "ev_dispatch::args"
    message := "Dispatching stateful precompile"
    fields :=
      [("address", r.target.text), ("call_type", r.callType.name),
        ("gas", toString r.gas.toNat)] }

/-- What is reported about a callee before it runs. -/
def Handling.events (r : Request) : Handling → List Event
  | .parentless | .uncountable | .entered _ => [r.frameEvent]
  | .tooDeep | .unfunded | .overfull | .codeless | .underpaid _ | .stateless _ => []

/-- What is reported about a call before its callee's own events. -/
def CallRecord.events (r : CallRecord) : List Event :=
  match r.handling with
  | .tooDeep => [r.refusalEvent]
  | .unfunded => []
  | handling => r.dispatchEvent :: handling.events r.request

/-- What is reported about an operation of the precompile at `self`. -/
def Operation.events (self : Address) : Operation → List Event
  | .log event => [event]
  | .invalidate reason =>
    [{ level := .warn
       target := "ev_dispatch::environment"
       message := "Precompile invalidated execution"
       fields := [("precompile", self.text), ("reason", reason)] }]
  | .observe | .chain | .useGas _ | .read _ | .write _ => []

/-- The log of a frame of the precompile at `self`, in order of execution. -/
def Trace.events (self : Address) : Trace → List Event
  | .done => []
  | .performed o _ rest => o.events self ++ rest.events self
  | .declined _ _ rest => rest.events self
  | .called call body rest =>
    call.events ++ body.events call.request.target ++ rest.events self

end PrecompileHost
