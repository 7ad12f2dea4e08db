import PrecompileHost.Calldata.Interface

/-!
Calls of the interface through which the native token serves as a token contract's ledger.
-/

namespace PrecompileHost

inductive TokenDualityCall
  | transfer (source target : Address) (amount : Word)
  | addToAllowList (a : Address)
  | removeFromAllowList (a : Address)
  | allowlist (a : Address)
  | transferredThisBlock
  | perCallCap
  | perBlockCap
  deriving DecidableEq

namespace TokenDualityCall

open Calldata (Method Interface DecodeError)

def transferMethod : Method TokenDualityCall where
  name := "transfer"
  selector := [0xbe, 0xab, 0xac, 0xc8]
  arity := 3
  read := fun arg => .transfer (Address.ofWord (arg 0)) (Address.ofWord (arg 1)) (arg 2)

def addToAllowListMethod : Method TokenDualityCall where
  name := "addToAllowList"
  selector := [0x31, 0xf5, 0x91, 0x02]
  arity := 1
  read := fun arg => .addToAllowList (Address.ofWord (arg 0))

def removeFromAllowListMethod : Method TokenDualityCall where
  name := "removeFromAllowList"
  selector := [0xeb, 0xa8, 0xda, 0xbc]
  arity := 1
  read := fun arg => .removeFromAllowList (Address.ofWord (arg 0))

def allowlistMethod : Method TokenDualityCall where
  name := "allowlist"
  selector := [0xa7, 0xcd, 0x52, 0xcb]
  arity := 1
  read := fun arg => .allowlist (Address.ofWord (arg 0))

def transferredThisBlockMethod : Method TokenDualityCall where
  name := "transferredThisBlock"
  selector := [0x85, 0xd6, 0x4c, 0xe5]
  arity := 0
  read := fun _ => .transferredThisBlock

def perCallCapMethod : Method TokenDualityCall where
  name := "perCallCap"
  selector := [0xb0, 0x63, 0x0b, 0x2d]
  arity := 0
  read := fun _ => .perCallCap

def perBlockCapMethod : Method TokenDualityCall where
  name := "perBlockCap"
  selector := [0xfa, 0xc8, 0x4a, 0x97]
  arity := 0
  read := fun _ => .perBlockCap

def interface : Interface TokenDualityCall where
  name := "ITokenDualityCalls"
  minArity := 0
  methods :=
    [transferMethod, addToAllowListMethod, removeFromAllowListMethod, allowlistMethod,
      transferredThisBlockMethod, perCallCapMethod, perBlockCapMethod]

def method : TokenDualityCall → Method TokenDualityCall
  | .transfer _ _ _ => transferMethod
  | .addToAllowList _ => addToAllowListMethod
  | .removeFromAllowList _ => removeFromAllowListMethod
  | .allowlist _ => allowlistMethod
  | .transferredThisBlock => transferredThisBlockMethod
  | .perCallCap => perCallCapMethod
  | .perBlockCap => perBlockCapMethod

def arguments : TokenDualityCall → List Word
  | .transfer source target amount => [source.toWord, target.toWord, amount]
  | .addToAllowList a | .removeFromAllowList a | .allowlist a => [a.toWord]
  | .transferredThisBlock | .perCallCap | .perBlockCap => []

def encode (c : TokenDualityCall) : Bytes :=
  Calldata.encode c.method.selector c.arguments

def decode (data : Bytes) : Except DecodeError TokenDualityCall :=
  interface.decode data

end TokenDualityCall

end PrecompileHost
