import PrecompileHost.Registry

/-!
The identity precompile: its output is its input.
-/

namespace PrecompileHost.Native.Identity

def address : Address := 4

def baseGas : Gas := 15

/-- Charged for each 32 bytes of input, a last shorter piece included. -/
def gasPerWord : Gas := 3

def requiredGas (input : Bytes) : Gas :=
  Gas.addSaturating baseGas
    (Gas.mulSaturating (UInt64.ofNat ((input.length + 31) / 32)) gasPerWord)

def precompile : Precompile :=
  .stateless requiredGas fun input => .ok input

end PrecompileHost.Native.Identity
