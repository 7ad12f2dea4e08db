import PrecompileHost.Event
import PrecompileHost.Frame
import PrecompileHost.Rules
import PrecompileHost.State.Access

/-!
Routines of stateful precompiles as data: trees of operations, each branching on its answer, and
of nested calls, each branching on its result. What an operation does is settled by whoever runs
the routine.
-/

namespace PrecompileHost

/-- What a frame sees of itself. Its contract shows the gas that is left. -/
structure Observation where
  callType : CallType
  origin : Address
  contract : Contract
  rawCaller : Address
  rawSelf : Address
  readOnly : Bool
  deriving DecidableEq

structure Block where
  number : Word := 0
  timestamp : Word := 1
  deriving DecidableEq

structure Header where
  number : UInt64
  timestamp : UInt64
  deriving DecidableEq

/-- What a frame sees of the chain. -/
structure ChainView where
  chainId : UInt64
  rules : Rules
  blockNumber : Word
  blockTime : UInt64
  header : Option Header
  deriving DecidableEq

inductive Operation
  | observe
  | chain
  | useGas (amount : Gas)
  | read (query : Query)
  | write (mutation : Mutation)
  | invalidate (reason : String)
  | log (event : Event)
  deriving DecidableEq

/-- Spending gas answers whether there was enough; a write answers nothing where state is
read-only. -/
abbrev Operation.Answer : Operation → Type
  | .observe => Observation
  | .chain => ChainView
  | .useGas _ => Bool
  | .read query => query.Answer
  | .write mutation => Option mutation.Answer
  | .invalidate _ | .log _ => Unit

inductive CallOption
  /-- The call is made in the name of the frame's own caller. -/
  | callerProxying
  deriving DecidableEq

/-- A call that a routine makes. -/
structure NestedCall where
  target : Address
  input : Bytes
  gas : Gas
  value : Word
  options : List CallOption := []
  deriving DecidableEq

/-- A routine with result `α`. An abort is no failure: it abandons the frame and all frames
around it. -/
inductive Program (α : Type) : Type
  | pure (result : α)
  | fail (error : CallError)
  | abort (message : String)
  | perform (operation : Operation) (next : operation.Answer → Program α)
  | call (call : NestedCall) (next : CallResult → Program α)

namespace Program

variable {α β : Type}

instance : Inhabited (Program α) := ⟨.fail .outOfGas⟩

def bind : Program α → (α → Program β) → Program β
  | .pure a, f => f a
  | .fail e, _ => .fail e
  | .abort m, _ => .abort m
  | .perform o next, f => .perform o fun answer => (next answer).bind f
  | .call c next, f => .call c fun result => (next result).bind f

instance : Monad Program where
  pure := .pure
  bind := bind

@[simp] theorem pure_eq (a : α) : (Pure.pure a : Program α) = .pure a := rfl

@[simp] theorem pure_bind (a : α) (f : α → Program β) : (.pure a >>= f) = f a := rfl

@[simp] theorem fail_bind (e : CallError) (f : α → Program β) :
    (.fail e >>= f) = .fail e := rfl

@[simp] theorem abort_bind (m : String) (f : α → Program β) :
    (.abort m >>= f) = .abort m := rfl

@[simp] theorem perform_bind (o : Operation) (next : o.Answer → Program α)
    (f : α → Program β) :
    (.perform o next >>= f) = .perform o fun answer => next answer >>= f := rfl

@[simp] theorem call_bind (c : NestedCall) (next : CallResult → Program α)
    (f : α → Program β) :
    (.call c next >>= f) = .call c fun result => next result >>= f := rfl

theorem bind_pure_right (p : Program α) : p.bind .pure = p := by
  induction p with
  | pure | fail | abort => rfl
  | perform o next ih => exact congrArg (perform o) (funext ih)
  | call c next ih => exact congrArg (call c) (funext ih)

theorem bind_assoc {γ : Type} (p : Program α) (f : α → Program β) (g : β → Program γ) :
    (p.bind f).bind g = p.bind fun a => (f a).bind g := by
  induction p with
  | pure | fail | abort => rfl
  | perform o next ih => exact congrArg (perform o) (funext ih)
  | call c next ih => exact congrArg (call c) (funext ih)

instance : LawfulMonad Program :=
  LawfulMonad.mk' Program
    (fun p => bind_pure_right p) (fun _ _ => rfl) (fun p f g => bind_assoc p f g)

def observe : Program Observation :=
  .perform .observe .pure

def chain : Program ChainView :=
  .perform .chain .pure

def useGas (amount : Gas) : Program Bool :=
  .perform (.useGas amount) .pure

def read (q : Query) : Program q.Answer :=
  .perform (.read q) .pure

/-- Writes where state may be written, and answers nothing elsewhere. -/
def write? (m : Mutation) : Program (Option m.Answer) :=
  .perform (.write m) .pure

def invalidate (reason : String) : Program Unit :=
  .perform (.invalidate reason) .pure

def log (event : Event) : Program Unit :=
  .perform (.log event) .pure

def callOut (c : NestedCall) : Program CallResult :=
  .call c .pure

/-- Spends gas, or fails for want of it. -/
def charge (amount : Gas) : Program Unit := do
  if ← useGas amount then pure () else .fail .outOfGas

def require (condition : Bool) (error : CallError) : Program Unit :=
  if condition then pure () else .fail error

/-- Fails where state is read-only. -/
def requireWritable : Program Unit := do
  require (!(← observe).readOnly) .writeProtection

/-- Writes, or fails where state is read-only. -/
def write (m : Mutation) : Program m.Answer := do
  match ← write? m with
  | some answer => pure answer
  | none => .fail .writeProtection

end Program

end PrecompileHost
