import PrecompileHost.Program
import PrecompileHost.Text.Hex

/-!
Precompiles by address, and which of them are active. A hook chooses addresses for the rules in
force; a chosen address is active if a precompile is registered there.
-/

namespace PrecompileHost

/-- A stateless precompile has a price and an output. A stateful one has a routine, which spends
gas itself. -/
inductive Precompile
  | stateless (requiredGas : Bytes → Gas) (run : Bytes → CallResult)
  | stateful (routine : Bytes → Program Bytes)

namespace Precompile

def isStateful : Precompile → Bool
  | .stateless _ _ => false
  | .stateful _ => true

/-- The gas that is charged before the precompile runs. -/
def requiredGas : Precompile → Bytes → Gas
  | .stateless price _, input => price input
  | .stateful _, _ => 0

/-- Runs the precompile without a frame, which a stateful one refuses. -/
def runFrameless : Precompile → Bytes → CallResult
  | .stateless _ run, input => run input
  | .stateful _, _ => .error .statefulWithoutFrame

end Precompile

/-- Chooses active addresses, given the rules and the registered addresses in ascending order. -/
abbrev Hooks := Rules → List Address → List Address

/-- Every registered precompile is active. -/
def Hooks.keepAll : Hooks :=
  fun _ registered => registered

abbrev Registry := WordMap 160 Precompile

namespace Registry

/-- The part of the registry at the chosen addresses. -/
def select (r : Registry) (chosen : List Address) : Registry :=
  chosen.foldl
    (fun selected a =>
      match r.get? a with
      | some p => selected.insert a p
      | none => selected)
    ∅

def activate (r : Registry) (rules : Rules) (hooks : Hooks) : Registry :=
  r.select (hooks rules r.keys)

/-- The addresses of a list in ascending order, each once. -/
def ascending (l : List Address) : List Address :=
  (WordMap.ofList (l.map fun a => (a, ()))).keys

def addressList (l : List Address) : String :=
  "[" ++ ", ".intercalate (l.map Address.text) ++ "]"

def overrideEvent (registered chosen : List Address) : Event :=
  { level := .debug
    target := "ev_dispatch::precompile"
    message := "Overriding active precompiles"
    fields :=
      [("added", addressList ((ascending chosen).filter (! registered.contains ·))),
        ("removed", addressList (registered.filter (! chosen.contains ·))),
        ("unchanged", addressList (registered.filter (chosen.contains ·)))] }

def unimplementedEvent (a : Address) : Event :=
  { level := .warn
    target := "ev_dispatch::precompile"
    message := "Ignoring active precompile without an implementation"
    fields := [("address", a.text)] }

/-- What an activation reports: the change, and every chosen address without a precompile. -/
def activationEvents (r : Registry) (rules : Rules) (hooks : Hooks) : List Event :=
  let chosen := hooks rules r.keys
  overrideEvent r.keys chosen ::
    (chosen.filter (! r.contains ·)).map unimplementedEvent

end Registry

end PrecompileHost
