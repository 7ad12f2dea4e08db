import PrecompileHost.Calldata.Interface

/-!
Calls of the interface for supplying the native token.
-/

namespace PrecompileHost

inductive NativeTokenCall
  | mint (recipient : Address) (amount : Word)
  | burn (holder : Address) (amount : Word)
  deriving DecidableEq

namespace NativeTokenCall

open Calldata (Method Interface DecodeError)

def mintMethod : Method NativeTokenCall where
  name := "mint"
  selector := [0x40, 0xc1, 0x0f, 0x19]
  arity := 2
  read := fun arg => .mint (Address.ofWord (arg 0)) (arg 1)

def burnMethod : Method NativeTokenCall where
  name := "burn"
  selector := [0x9d, 0xc2, 0x9f, 0xac]
  arity := 2
  read := fun arg => .burn (Address.ofWord (arg 0)) (arg 1)

def interface : Interface NativeTokenCall where
  name := "INativeTokenCalls"
  minArity := 2
  methods := [mintMethod, burnMethod]

def method : NativeTokenCall → Method NativeTokenCall
  | .mint _ _ => mintMethod
  | .burn _ _ => burnMethod

def arguments : NativeTokenCall → List Word
  | .mint a amount | .burn a amount => [a.toWord, amount]

def encode (c : NativeTokenCall) : Bytes :=
  Calldata.encode c.method.selector c.arguments

def decode (data : Bytes) : Except DecodeError NativeTokenCall :=
  interface.decode data

end NativeTokenCall

end PrecompileHost
