import PrecompileHost.Registry
import PrecompileHost.Trace

/-!
Execution of routines. A frame runs in a fixed setting and context and changes the world; how its
nested calls are made is left open.
-/

namespace PrecompileHost

/-- What stays fixed while a call runs. -/
structure Setting where
  maxDepth : Nat := CallContext.defaultMaxDepth
  chainId : UInt64 := 1
  rules : Rules := {}
  block : Block := {}
  header : Option Header := none
  origin : Address := 0
  active : Registry := ∅

def Setting.chainView (s : Setting) : ChainView :=
  { chainId := s.chainId
    rules := s.rules
    blockNumber := s.block.number
    blockTime := s.block.timestamp.clampToUInt64
    header := s.header }

/-- What a running call changes: the state, and the reason for which the transaction is
invalid. -/
structure World where
  state : State := {}
  invalidation : Option String := none
  deriving DecidableEq

/-- The first reason stays. -/
def World.invalidate (w : World) (reason : String) : World :=
  { w with invalidation := w.invalidation.or (some reason) }

/-- An execution so far: how it ended, the gas it has left, the world and the transcript. -/
structure Run (α : Type) where
  ending : Ending (Except CallError α)
  gas : Gas
  world : World
  trace : Trace

/-- The run whose transcript is what `f` makes of this one's. -/
def Run.mapTrace {α : Type} (f : Trace → Trace) (r : Run α) : Run α :=
  { r with trace := f r.trace }

/-- A dispatched call with the callee's transcript and the world after it. -/
structure Dispatched where
  record : CallRecord
  body : Trace
  world : World

/-- What a frame with the given gas sees of itself. -/
def Frame.observe (f : Frame) (s : Setting) (c : CallContext) (gas : Gas) : Observation :=
  { callType := f.callType
    origin := s.origin
    contract := { f.contract with gas }
    rawCaller := f.rawCaller
    rawSelf := f.rawSelf
    readOnly := c.readOnly }

/-- What a frame runs in: the setting, its context, and the way its nested calls are made. -/
structure Host where
  setting : Setting
  context : CallContext
  dispatch : Request → World → Dispatched

namespace Host

/-- The answer to an operation, with the gas and the world after it. -/
def perform (h : Host) (frame : Frame) (gas : Gas) (w : World) :
    (o : Operation) → o.Answer × Gas × World
  | .observe => (frame.observe h.setting h.context gas, gas, w)
  | .chain => (h.setting.chainView, gas, w)
  | .useGas amount =>
    match Gas.sub? gas amount with
    | some left => (true, left, w)
    | none => (false, gas, w)
  | .read query => (query.answer w.state.accounts, gas, w)
  | .write mutation =>
    if h.context.readOnly then (none, gas, w)
    else
      let (answer, state) := mutation.apply w.state
      (some answer, gas, { w with state })
  | .invalidate reason => ((), gas, w.invalidate reason)
  | .log _ => ((), gas, w)

/-- The gas left once that of a nested call is set aside, or why the frame may not make it. -/
def reserve (h : Host) (gas : Gas) (c : NestedCall) : Except CallError Gas :=
  if h.context.readOnly ∧ c.value ≠ 0 then .error .writeProtection
  else
    match Gas.sub? gas c.gas with
    | some left => .ok left
    | none => .error .outOfGas

end Host

namespace NestedCall

/-- Who makes a nested call: the frame itself, or its own caller where that is proxied. The
caller that a delegate call inherits is not proxied. -/
def caller (c : NestedCall) (frame : Frame) (gas : Gas) : Caller :=
  if .callerProxying ∈ c.options then
    match frame.callType with
    | .delegateCall => .account frame.rawCaller
    | .call | .callCode | .staticCall => .account frame.contract.caller
  else .frame { frame.contract with gas }

def request (c : NestedCall) (frame : Frame) (gas : Gas) : Request :=
  { callType := .call
    caller := c.caller frame gas
    target := c.target
    input := c.input
    gas := c.gas
    value := c.value }

end NestedCall

/-- What a nested call comes to for the frame that makes it, with the gas the frame has then. -/
inductive Attempt
  | declined (error : CallError)
  | aborted (message : String) (gas : Gas) (call : Dispatched)
  | returned (result : CallResult) (gas : Gas) (call : Dispatched)

/-- Makes a nested call, if the frame may. Gas that the callee leaves is given back. -/
def Host.attempt (h : Host) (frame : Frame) (gas : Gas) (w : World) (c : NestedCall) : Attempt :=
  match h.reserve gas c with
  | .error e => .declined e
  | .ok left =>
    let call := h.dispatch (c.request frame left) w
    match call.record.ending with
    | .aborted m => .aborted m left call
    | .returned outcome =>
      .returned outcome.result (Gas.addSaturating left outcome.gasLeft) call

def Program.run {α : Type} (h : Host) (frame : Frame) : Program α → Gas → World → Run α
  | .pure a, gas, w => ⟨.returned (.ok a), gas, w, .done⟩
  | .fail e, gas, w => ⟨.returned (.error e), gas, w, .done⟩
  | .abort m, gas, w => ⟨.aborted m, gas, w, .done⟩
  | .perform o next, gas, w =>
    let (answer, gas, w) := h.perform frame gas w o
    ((next answer).run h frame gas w).mapTrace (.performed o answer)
  | .call c next, gas, w =>
    match h.attempt frame gas w c with
    | .declined e => ((next (.error e)).run h frame gas w).mapTrace (.declined c e)
    | .aborted m gas d => ⟨.aborted m, gas, d.world, .called d.record d.body .done⟩
    | .returned result gas d =>
      ((next result).run h frame gas d.world).mapTrace (.called d.record d.body)

end PrecompileHost
