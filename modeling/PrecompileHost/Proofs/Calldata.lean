import PrecompileHost.Calldata.Lemmas
import PrecompileHost.Host
import PrecompileHost.Native.Mint
import PrecompileHost.Native.TokenDuality

/-!
The calldata of the shipped precompiles. Encoding and decoding are inverse to each other up to
what no argument depends on, and a precompile does the same with calldata as with the canonical
calldata of the call that it stands for.
-/

namespace PrecompileHost

open Calldata (Parameter Format)

/-- Two runs that differ in nothing but their transcripts. -/
structure Run.Matches {α : Type} (run run' : Run α) : Prop where
  ending : run.ending = run'.ending
  gas : run.gas = run'.gas
  world : run.world = run'.world

/-- The calldata of an interface, of which `least` bytes are arguments in any call, and a routine
that takes it. -/
structure Calldata.Format.Exact {γ : Type} (F : Format γ) (least : Nat)
    (routine : Bytes → Program Bytes) : Prop where
  decodes (call : γ) : F.interface.decode (F.encode call) = .ok call
  accepts (data : Bytes) : (∃ call, F.interface.decode data = .ok call) ↔
    4 + least ≤ data.length ∧ ∃ call, (F.method call).selector = data.take 4 ∧
      4 + 32 * (F.parameters call).length ≤ data.length
  canonical (data : Bytes) (call : γ) : F.interface.decode data = .ok call →
    F.encode call = Calldata.canonical (F.parameters call) data
  matching (data : Bytes) (call : γ) : F.interface.decode data = .ok call →
    ∀ (h : Host) (frame : Frame) (gas : Gas) (w : World),
      ((routine data).run h frame gas w).Matches ((routine (F.encode call)).run h frame gas w)

/-- It is enough for a routine to go by what it decodes. -/
theorem Calldata.Format.exact_of_matches {γ : Type} {F : Format γ} {least : Nat}
    {routine : Bytes → Program Bytes} (hleast : least = 32 * F.interface.minArity)
    (hroutine : ∀ data data' call, F.interface.decode data = .ok call →
      F.interface.decode data' = .ok call → ∀ h frame gas w,
        ((routine data).run h frame gas w).Matches ((routine data').run h frame gas w)) :
    F.Exact least routine where
  decodes := F.decode_encode
  accepts data := by
    rw [hleast]
    exact F.exists_decode_iff data
  canonical _ _ hdecode := F.encode_of_decode hdecode
  matching data call hdecode := hroutine data _ call hdecode (F.decode_encode call)

/-! ### Supplying the native token -/

namespace NativeTokenCall

def parameters : NativeTokenCall → List Parameter
  | .mint _ _ | .burn _ _ => [.address, .amount]

def format : Format NativeTokenCall where
  interface := interface
  method := method
  parameters := parameters
  arguments := arguments
  method_mem call := by
    cases call <;> simp [interface, method]
  method?_selector := by
    simp only [interface, List.forall_mem_cons]
    exact ⟨rfl, rfl, nofun⟩
  selector_length := by
    simp [interface, mintMethod, burnMethod]
  minArity_le := by
    simp [interface, mintMethod, burnMethod]
  arity call := by
    cases call <;> rfl
  arguments_length call := by
    cases call <;> rfl
  read_eq call word h := by
    cases call <;>
      simp_all [method, mintMethod, burnMethod, arguments, List.range_succ]
  method_read := by
    simp [interface, mintMethod, burnMethod, method]
  arguments_read := by
    simp [interface, mintMethod, burnMethod, arguments, parameters, List.range_succ,
      Parameter.denoted]

end NativeTokenCall

namespace TokenDualityCall

def parameters : TokenDualityCall → List Parameter
  | .transfer _ _ _ => [.address, .address, .amount]
  | .addToAllowList _ | .removeFromAllowList _ | .allowlist _ => [.address]
  | .transferredThisBlock | .perCallCap | .perBlockCap => []

def format : Format TokenDualityCall where
  interface := interface
  method := method
  parameters := parameters
  arguments := arguments
  method_mem call := by
    cases call <;> simp [interface, method]
  method?_selector := by
    simp only [interface, List.forall_mem_cons]
    exact ⟨rfl, rfl, rfl, rfl, rfl, rfl, rfl, nofun⟩
  selector_length := by
    simp only [interface, List.forall_mem_cons]
    exact ⟨rfl, rfl, rfl, rfl, rfl, rfl, rfl, nofun⟩
  minArity_le m _ := Nat.zero_le m.arity
  arity call := by
    cases call <;> rfl
  arguments_length call := by
    cases call <;> rfl
  read_eq call word h := by
    cases call <;>
      simp_all [method, transferMethod, addToAllowListMethod, removeFromAllowListMethod,
        allowlistMethod, transferredThisBlockMethod, perCallCapMethod, perBlockCapMethod,
        arguments, List.range_succ]
  method_read := by
    simp only [interface, List.forall_mem_cons]
    exact ⟨fun _ => rfl, fun _ => rfl, fun _ => rfl, fun _ => rfl, fun _ => rfl, fun _ => rfl,
      fun _ => rfl, nofun⟩
  arguments_read := by
    simp only [interface, List.forall_mem_cons]
    exact ⟨fun _ => rfl, fun _ => rfl, fun _ => rfl, fun _ => rfl, fun _ => rfl, fun _ => rfl,
      fun _ => rfl, nofun⟩

end TokenDualityCall

namespace Native

theorem Mint.matches_run (admin : Address) {data data' : Bytes} {call : NativeTokenCall}
    (hdata : NativeTokenCall.format.interface.decode data = .ok call)
    (hdata' : NativeTokenCall.format.interface.decode data' = .ok call)
    (h : Host) (frame : Frame) (gas : Gas) (w : World) :
    ((routine admin data).run h frame gas w).Matches
      ((routine admin data').run h frame gas w) := by
  have hsame : routine admin data = routine admin data' := by
    have hdecode : NativeTokenCall.decode data = NativeTokenCall.decode data' :=
      hdata.trans hdata'.symm
    rw [routine, routine, hdecode]
  rw [hsame]
  exact ⟨rfl, rfl, rfl⟩

theorem TokenDuality.matches_run (c : TokenDuality.Config) {data data' : Bytes}
    {call : TokenDualityCall}
    (hdata : TokenDualityCall.format.interface.decode data = .ok call)
    (hdata' : TokenDualityCall.format.interface.decode data' = .ok call)
    (h : Host) (frame : Frame) (gas : Gas) (w : World) :
    ((routine c data).run h frame gas w).Matches ((routine c data').run h frame gas w) := by
  have hdecode : TokenDualityCall.decode data = .ok call := hdata
  have hdecode' : TokenDualityCall.decode data' = .ok call := hdata'
  -- the length of the calldata shows in the log alone
  simp only [routine, hdecode, hdecode']
  exact ⟨rfl, rfl, rfl⟩

/-- Of both interfaces, every call is decoded from its encoding, and every calldata that is long
enough for a call of its selector is decoded. What it is decoded to is encoded by the calldata
itself, up to the upper bytes of addresses and what follows the last argument, and the precompile
cannot tell the two apart. -/
theorem exact_calldata :
    (∀ admin, NativeTokenCall.format.Exact 64 (Mint.routine admin)) ∧
      ∀ c, TokenDualityCall.format.Exact 0 (TokenDuality.routine c) := by
  constructor
  · intro admin
    apply Format.exact_of_matches rfl
    intro data data' call hdata hdata'
    exact Mint.matches_run admin hdata hdata'
  · intro c
    apply Format.exact_of_matches rfl
    intro data data' call hdata hdata'
    exact TokenDuality.matches_run c hdata hdata'

/-- An address with a bit above its own, and a byte after the last argument. -/
example :
    NativeTokenCall.decode (NativeTokenCall.mintMethod.selector ++
      Word.toBytes (BitVec.ofNat 256 (2 ^ 200 + 0xb1)) ++ Word.toBytes 7 ++ [0xff]) =
      .ok (.mint 0xb1 7) := by
  rfl

end Native

end PrecompileHost
