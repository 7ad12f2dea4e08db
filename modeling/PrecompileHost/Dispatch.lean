import PrecompileHost.Host

/-!
Execution of calls. A call takes a snapshot, moves its value and runs what is active at its
target; the snapshot is released if the callee succeeds and gone back to if it fails. A frame is
one deeper than the call that opens it, so the distance to the depth limit bounds the nesting.
-/

namespace PrecompileHost

namespace Request

/-- The state in which the callee starts: only a plain call moves its value. -/
def fund? (r : Request) (s : State) : Option State :=
  match r.callType with
  | .call =>
    (s.accounts.transfer? r.caller.address r.target r.value).map fun accounts =>
      { s with accounts }
  | .callCode | .delegateCall | .staticCall => some s

end Request

/-- Opens a frame for a routine. -/
def Request.enter (r : Request) (s : Setting)
    (dispatch : CallContext → Request → World → Dispatched) (c : CallContext)
    (routine : Bytes → Program Bytes) (w : World) : Handling × Run Bytes :=
  match r.frame? with
  | none => (.parentless, ⟨.returned (.error .delegateWithoutFrame), r.gas, w, .done⟩)
  | some frame =>
    if CallContext.depthLimit ≤ c.depth + 1 then
      (.uncountable, ⟨.aborted "attempt to add with overflow", r.gas, w, .done⟩)
    else
      let context := c.enter r.callType
      let host : Host := { setting := s, context, dispatch := dispatch context }
      (.entered frame, (routine r.input).run host frame r.gas w)

/-- Runs what is active at the target. -/
def Request.runTarget (r : Request) (s : Setting)
    (dispatch : CallContext → Request → World → Dispatched) (c : CallContext) (w : World) :
    Handling × Run Bytes :=
  match s.active.get? r.target with
  | none => (.codeless, ⟨.returned (.ok []), r.gas, w, .done⟩)
  | some (.stateless price run) =>
    match Gas.sub? r.gas (price r.input) with
    | none => (.underpaid (price r.input), ⟨.returned (.error .outOfGas), 0, w, .done⟩)
    | some left =>
      (.stateless (price r.input), ⟨.returned (run r.input), left, w, .done⟩)
  | some (.stateful routine) => r.enter s dispatch c routine w

namespace Dispatched

/-- A call that is turned away: its gas goes back and nothing happens. -/
def refused (r : Request) (c : CallContext) (handling : Handling) (error : CallError)
    (w : World) : Dispatched :=
  { record :=
      { request := r
        context := c
        handling
        found := w.state
        left := w.state
        ending := .returned ⟨.error error, r.gas⟩ }
    body := .done
    world := w }

/-- Ends a call whose snapshot is `id`. A failure takes the gas, unless it is a revert; an abort
leaves the snapshot behind. -/
def settle (r : Request) (c : CallContext) (id : Nat) (found : State) (handling : Handling)
    (callee : Run Bytes) : Dispatched :=
  let record (ending : Ending Outcome) : CallRecord :=
    { request := r, context := c, handling, found, left := callee.world.state, ending }
  match callee.ending with
  | .aborted m => ⟨record (.aborted m), callee.trace, callee.world⟩
  | .returned (.ok output) =>
    ⟨record (.returned ⟨.ok output, callee.gas⟩), callee.trace,
      { callee.world with state := callee.world.state.commit id }⟩
  | .returned (.error e) =>
    ⟨record (.returned ⟨.error e, if e.isRevert then callee.gas else 0⟩), callee.trace,
      { callee.world with state := callee.world.state.revertTo id }⟩

end Dispatched

/-- Makes a call that the depth limit allows; `dispatch` makes the calls nested in it. -/
def Request.execute (r : Request) (s : Setting)
    (dispatch : CallContext → Request → World → Dispatched) (c : CallContext) (w : World) :
    Dispatched :=
  let r := { r with value := r.carriedValue }
  if w.state.accounts.balance r.caller.address < r.value then
    .refused r c .unfunded .insufficientBalance w
  else
    let (id, kept) := w.state.snapshot
    match r.fund? kept with
    | none =>
      .settle r c id kept .overfull
        ⟨.returned (.error .insufficientBalance), r.gas, { w with state := kept }, .done⟩
    | some found =>
      let (handling, callee) := r.runTarget s dispatch c { w with state := found }
      .settle r c id found handling callee

/-- Makes a call, given how many more levels of calls the depth limit allows. -/
def dispatch (s : Setting) : Nat → CallContext → Request → World → Dispatched
  | 0, c, r, w => .refused r c .tooDeep .callDepthExceeded w
  | levels + 1, c, r, w => r.execute s (dispatch s levels) c w

/-- How many levels of calls may be made at a depth: none above the limit. -/
def Setting.levels (s : Setting) (depth : Nat) : Nat :=
  s.maxDepth + 1 - depth

end PrecompileHost
