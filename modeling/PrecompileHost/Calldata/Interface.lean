import PrecompileHost.Text.Hex

/-!
Calldata of interfaces whose arguments are single words: a four-byte selector, then one 32-byte
word for each argument. Reading does not insist on the canonical form: an address ignores the
upper bytes of its word, and bytes after the last argument do not matter.
-/

namespace PrecompileHost.Calldata

/-- A method, with the way its arguments make up a call. -/
structure Method (γ : Type) where
  name : String
  selector : Bytes
  arity : Nat
  read : (Nat → Word) → γ

/-- The methods of an interface. Every one has at least `minArity` arguments. -/
structure Interface (γ : Type) where
  name : String
  minArity : Nat
  methods : List (Method γ)

inductive DecodeError
  | tooShort (interfaceName : String) (data : Bytes)
  | unknownSelector (interfaceName : String) (selector : Bytes)
  | overrun
  deriving DecidableEq

def DecodeError.message : DecodeError → String
  | .tooShort name [] => "type check failed for \"" ++ name ++ "\""
  | .tooShort name data =>
    "type check failed for \"" ++ name ++ "\" with data: " ++ String.ofList (Hex.ofBytes data)
  | .unknownSelector name selector =>
    "unknown selector `" ++ Bytes.text selector ++ "` for " ++ name
  | .overrun => "ABI decoding failed: buffer overrun while deserializing"

/-- The word of argument `i`, the first being 0. -/
def argument (data : Bytes) (i : Nat) : Word :=
  Word.ofBytes ((data.drop (4 + 32 * i)).take 32)

/-- The least calldata with the given arguments. -/
def encode (selector : Bytes) (arguments : List Word) : Bytes :=
  selector ++ arguments.flatMap Word.toBytes

namespace Interface

variable {γ : Type}

def method? (I : Interface γ) (selector : Bytes) : Option (Method γ) :=
  I.methods.find? (·.selector = selector)

def decode (I : Interface γ) (data : Bytes) : Except DecodeError γ :=
  if data.length < 4 + 32 * I.minArity then .error (.tooShort I.name data)
  else
    match I.method? (data.take 4) with
    | none => .error (.unknownSelector I.name (data.take 4))
    | some m =>
      if data.length < 4 + 32 * m.arity then .error .overrun else .ok (m.read (argument data))

end Interface

end PrecompileHost.Calldata
