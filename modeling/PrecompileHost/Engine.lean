import PrecompileHost.Dispatch

/-!
An engine: a state with the precompiles that are active in it. Calls may be made one by one in
the engine's context, or as transactions, which a precompile can invalidate as a whole.
-/

namespace PrecompileHost

structure Engine where
  setting : Setting
  registered : Registry
  hooks : Hooks
  context : CallContext := {}
  world : World := {}

namespace Engine

/-- Chooses the active precompiles anew, out of all registered ones. -/
def reactivate (e : Engine) : Engine :=
  { e with setting.active := e.registered.activate e.setting.rules e.hooks }

/-- An engine over `state` in which every registered precompile is active. -/
def create (state : State) (registered : Registry) : Engine :=
  reactivate { setting := {}, registered, hooks := Hooks.keepAll, world := { state } }

def withMaxDepth (e : Engine) (maxDepth : Nat) : Engine :=
  { e with setting.maxDepth := maxDepth }

def withChainId (e : Engine) (chainId : UInt64) : Engine :=
  { e with setting.chainId := chainId }

def withRules (e : Engine) (rules : Rules) : Engine :=
  reactivate { e with setting.rules := rules }

def withHooks (e : Engine) (hooks : Hooks) : Engine :=
  reactivate { e with hooks }

def withBlock (e : Engine) (block : Block) : Engine :=
  { e with setting.block := block }

def withHeader (e : Engine) (header : Header) : Engine :=
  { e with setting.header := some header }

def withContext (e : Engine) (context : CallContext) : Engine :=
  { e with context }

def withState (e : Engine) (state : State) : Engine :=
  { e with world.state := state }

/-- Marks the transaction as invalid; the first reason stays. -/
def invalidate (e : Engine) (reason : String) : Engine :=
  { e with world := e.world.invalidate reason }

/-- What choosing the active precompiles reports. -/
def activationEvents (e : Engine) : List Event :=
  e.registered.activationEvents e.setting.rules e.hooks

/-- Makes a call of any type in the engine's context. -/
def dispatch (e : Engine) (r : Request) : Dispatched :=
  PrecompileHost.dispatch e.setting (e.setting.levels e.context.depth) e.context r e.world

/-- The engine after a call. -/
def after (e : Engine) (d : Dispatched) : Engine :=
  { e with world := d.world }

def call (e : Engine) (caller : Caller) (target : Address) (input : Bytes) (gas : Gas)
    (value : Word) : Dispatched :=
  e.dispatch { callType := .call, caller, target, input, gas, value }

def callCode (e : Engine) (caller : Caller) (target : Address) (input : Bytes) (gas : Gas)
    (value : Word) : Dispatched :=
  e.dispatch { callType := .callCode, caller, target, input, gas, value }

def delegateCall (e : Engine) (caller : Caller) (target : Address) (input : Bytes)
    (gas : Gas) : Dispatched :=
  e.dispatch { callType := .delegateCall, caller, target, input, gas, value := 0 }

def staticCall (e : Engine) (caller : Caller) (target : Address) (input : Bytes)
    (gas : Gas) : Dispatched :=
  e.dispatch { callType := .staticCall, caller, target, input, gas, value := 0 }

/-- What the frame of a call would see of itself, without running anything. -/
def observe (e : Engine) (r : Request) : Except CallError Observation :=
  match r.frame? with
  | none => .error .delegateWithoutFrame
  | some frame => .ok (frame.observe e.setting e.context r.gas)

/-- Runs a precompile on its own: no snapshot is taken, no value moved and no price charged. -/
def runAlone (e : Engine) (p : Precompile) (r : Request) : Handling × Run Bytes :=
  match p with
  | .stateless price run =>
    (.stateless (price r.input), ⟨.returned (run r.input), r.gas, e.world, .done⟩)
  | .stateful routine =>
    r.enter e.setting
      (fun c r w => PrecompileHost.dispatch e.setting (e.setting.levels c.depth) c r w)
      e.context routine e.world

/-- The engine in which a transaction of `origin` starts. -/
def beginTransaction (e : Engine) (origin : Address) : Engine :=
  { e with setting.origin := origin, context := {}, world.invalidation := none }

/-- A finished transaction: its call, and the engine after it. -/
structure Transaction where
  call : Dispatched
  engine : Engine

/-- Makes a call from `origin` as a transaction. -/
def transact (e : Engine) (origin target : Address) (input : Bytes) (gas : Gas)
    (value : Word) : Transaction :=
  let started := e.beginTransaction origin
  let call := started.call (.account origin) target input gas value
  let ended := started.after call
  match call.record.ending with
  | .aborted _ => ⟨call, ended⟩
  | .returned _ => ⟨call, { ended with world.invalidation := none }⟩

namespace Transaction

/-- The outcome of the call, which an invalidation overrides with its reason. -/
def ending (t : Transaction) : Ending (Except String Outcome) :=
  match t.call.record.ending with
  | .aborted m => .aborted m
  | .returned outcome =>
    match t.call.world.invalidation with
    | some reason => .returned (.error reason)
    | none => .returned (.ok outcome)

end Transaction

end Engine

/-- What a transaction answers when it was invalidated. -/
def invalidationMessage (reason : String) : String :=
  "execution invalidated: " ++ reason

end PrecompileHost
