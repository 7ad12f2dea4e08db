import PrecompileHost.Calldata.Interface
import PrecompileHost.Word.Lemmas

/-!
Calldata as words. What is read of calldata depends neither on the upper bytes of an address nor
on what follows the last argument. With the former cleared and the latter left out, calldata is
the encoding of the call that is read from it.
-/

namespace PrecompileHost

namespace Word

theorem lowBytes_add (m n value : Nat) :
    lowBytes (m + n) value = lowBytes m (value / 256 ^ n) ++ lowBytes n value := by
  induction n generalizing value with
  | zero => simp [lowBytes]
  | succ n ih =>
    have hdiv : value / 256 / 256 ^ n = value / 256 ^ (n + 1) := by
      rw [Nat.div_div_eq_div_mul, Nat.pow_succ, Nat.mul_comm]
    show lowBytes (m + n) (value / 256) ++ _ = _ ++ (lowBytes n (value / 256) ++ _)
    rw [ih, hdiv, List.append_assoc]

/-- Bytes further up do not matter. -/
theorem lowBytes_mod (n value : Nat) : lowBytes n (value % 256 ^ n) = lowBytes n value := by
  induction n generalizing value with
  | zero => rfl
  | succ n ih =>
    have hdiv : value % 256 ^ (n + 1) / 256 = value / 256 % 256 ^ n := by
      rw [Nat.pow_succ, Nat.mod_mul_left_div_self]
    have hdvd : 256 ∣ 256 ^ (n + 1) := Nat.dvd_mul_left 256 (256 ^ n)
    have hbyte : UInt8.ofNat (value % 256 ^ (n + 1)) = UInt8.ofNat value := by
      apply UInt8.toNat_inj.mp
      simp only [UInt8.toNat_ofNat']
      exact Nat.mod_mod_of_dvd value hdvd
    rw [lowBytes, hdiv, hbyte, ih, lowBytes]

end Word

namespace Address

/-- An address is the low 20 bytes of its word. -/
theorem toBytes_toWord_ofWord (w : Word) :
    (ofWord w).toWord.toBytes = List.replicate 12 0 ++ w.toBytes.drop 12 := by
  have hvalue : (ofWord w).toWord.toNat = w.toNat % 256 ^ 20 := by
    simp only [ofWord, toWord, BitVec.toNat_setWidth]
    omega
  have hupper : w.toNat % 256 ^ 20 / 256 ^ 20 = 0 :=
    Nat.div_eq_of_lt (Nat.mod_lt _ (by decide))
  have hzeros : Word.lowBytes 12 0 = List.replicate 12 0 := rfl
  simp only [Word.toBytes, hvalue, Word.lowBytes_add 12 20, hupper, hzeros, Word.lowBytes_mod]
  simp

end Address

namespace Calldata

/-! ### Words of an argument block -/

/-- The word that starts after `i` others. -/
def wordAt (block : Bytes) (i : Nat) : Word :=
  Word.ofBytes ((block.drop (32 * i)).take 32)

/-- The first `n` words. -/
def wordsAt (n : Nat) (block : Bytes) : List Word :=
  (List.range n).map (wordAt block)

theorem map_argument (n : Nat) (data : Bytes) :
    (List.range n).map (argument data) = wordsAt n (data.drop 4) := by
  simp [wordsAt, wordAt, argument]

@[simp] theorem wordsAt_succ (n : Nat) (block : Bytes) :
    wordsAt (n + 1) block = Word.ofBytes (block.take 32) :: wordsAt n (block.drop 32) := by
  have hrest : wordAt block ∘ Nat.succ = wordAt (block.drop 32) := by
    funext i
    have hstart : 32 * i.succ = 32 + 32 * i := by omega
    simp [wordAt, hstart]
  simp [wordsAt, List.range_succ_eq_map, hrest, wordAt]

/-- The words of a block are read back. -/
theorem wordsAt_flatMap_toBytes (arguments : List Word) :
    wordsAt arguments.length (arguments.flatMap Word.toBytes) = arguments := by
  induction arguments with
  | nil => rfl
  | cons w rest ih => simp [ih]

/-! ### Canonical calldata -/

/-- What an argument stands for. -/
inductive Parameter
  | address
  | amount
  deriving DecidableEq

namespace Parameter

/-- The part of a word that the argument depends on. -/
def denoted : Parameter → Word → Word
  | .address, w => (Address.ofWord w).toWord
  | .amount, w => w

/-- Clears the bytes of a word that the argument does not depend on: the upper 12 of an
address. -/
def clear : Parameter → Bytes → Bytes
  | .address, bytes => List.replicate 12 0 ++ bytes.drop 12
  | .amount, bytes => bytes

theorem toBytes_denoted (p : Parameter) {bytes : Bytes} (h : bytes.length = 32) :
    (p.denoted (Word.ofBytes bytes)).toBytes = p.clear bytes := by
  cases p with
  | address =>
    show (Address.ofWord (Word.ofBytes bytes)).toWord.toBytes = _
    rw [Address.toBytes_toWord_ofWord, Word.toBytes_ofBytes h, clear]
  | amount => exact Word.toBytes_ofBytes h

end Parameter

/-- An argument block up to its last argument, with what no argument depends on cleared. -/
def clearBlock : List Parameter → Bytes → Bytes
  | [], _ => []
  | p :: rest, block => p.clear (block.take 32) ++ clearBlock rest (block.drop 32)

/-- Calldata up to its last argument, with what no argument depends on cleared. -/
def canonical (parameters : List Parameter) (data : Bytes) : Bytes :=
  data.take 4 ++ clearBlock parameters (data.drop 4)

theorem flatMap_toBytes_denoted (parameters : List Parameter) (block : Bytes)
    (h : 32 * parameters.length ≤ block.length) :
    (List.zipWith Parameter.denoted parameters (wordsAt parameters.length block)).flatMap
      Word.toBytes = clearBlock parameters block := by
  induction parameters generalizing block with
  | nil => rfl
  | cons p rest ih =>
    rw [List.length_cons] at h
    have hfirst : (block.take 32).length = 32 := by
      rw [List.length_take]
      omega
    have hrest : 32 * rest.length ≤ (block.drop 32).length := by
      rw [List.length_drop]
      omega
    simp [clearBlock, p.toBytes_denoted hfirst, ih _ hrest]

/-! ### Interfaces -/

section Interface

variable {γ : Type} {I : Interface γ}

theorem Interface.of_method?_eq_some {selector : Bytes} {m : Method γ}
    (h : I.method? selector = some m) : m ∈ I.methods ∧ m.selector = selector :=
  ⟨List.mem_of_find?_eq_some h, by simpa using List.find?_some h⟩

theorem Interface.decode_eq_ok_iff {data : Bytes} {call : γ} :
    I.decode data = .ok call ↔
      4 + 32 * I.minArity ≤ data.length ∧ ∃ m, I.method? (data.take 4) = some m ∧
        4 + 32 * m.arity ≤ data.length ∧ m.read (argument data) = call := by
  unfold decode
  by_cases hshort : data.length < 4 + 32 * I.minArity
  · simp [hshort, Nat.not_le.mpr hshort]
  · cases hmethod : I.method? (data.take 4) with
    | none => simp [hshort]
    | some m =>
      by_cases hover : data.length < 4 + 32 * m.arity
      · simp [hshort, hover, Nat.not_le.mpr hover]
      · simp [hshort, hover, Nat.not_lt.mp hshort, Nat.not_lt.mp hover]

end Interface

/-- An interface with the spelling of its calls: the method, what its parameters are, and the
words that are their arguments. A method is found by its selector, and reads a call back from the
call's words. -/
structure Format (γ : Type) where
  interface : Interface γ
  method : γ → Method γ
  parameters : γ → List Parameter
  arguments : γ → List Word
  method_mem (call : γ) : method call ∈ interface.methods
  method?_selector : ∀ m ∈ interface.methods, interface.method? m.selector = some m
  selector_length : ∀ m ∈ interface.methods, m.selector.length = 4
  minArity_le : ∀ m ∈ interface.methods, interface.minArity ≤ m.arity
  arity (call : γ) : (method call).arity = (parameters call).length
  arguments_length (call : γ) : (arguments call).length = (parameters call).length
  read_eq (call : γ) (word : Nat → Word) :
    (List.range (method call).arity).map word = arguments call → (method call).read word = call
  method_read : ∀ m ∈ interface.methods, ∀ word, method (m.read word) = m
  arguments_read : ∀ m ∈ interface.methods, ∀ word,
    arguments (m.read word) =
      List.zipWith Parameter.denoted (parameters (m.read word)) ((List.range m.arity).map word)

namespace Format

variable {γ : Type} (F : Format γ)

def encode (call : γ) : Bytes :=
  Calldata.encode (F.method call).selector (F.arguments call)

theorem selector_length_method (call : γ) : (F.method call).selector.length = 4 :=
  F.selector_length _ (F.method_mem call)

theorem take_encode (call : γ) : (F.encode call).take 4 = (F.method call).selector := by
  rw [encode, Calldata.encode, List.take_append_of_le_length, List.take_of_length_le] <;>
    simp [F.selector_length_method]

theorem drop_encode (call : γ) :
    (F.encode call).drop 4 = (F.arguments call).flatMap Word.toBytes := by
  rw [encode, Calldata.encode, List.drop_append_of_le_length, List.drop_of_length_le] <;>
    simp [F.selector_length_method]

theorem length_encode (call : γ) :
    (F.encode call).length = 4 + 32 * (F.parameters call).length := by
  have hblock (ws : List Word) : (ws.flatMap Word.toBytes).length = 32 * ws.length := by
    induction ws with
    | nil => rfl
    | cons w rest ih =>
      simp [ih]
      omega
  rw [encode, Calldata.encode, List.length_append, F.selector_length_method, hblock,
    F.arguments_length]

theorem decode_encode (call : γ) : F.interface.decode (F.encode call) = .ok call := by
  have hlength := F.length_encode call
  have harity := F.arity call
  have hleast := F.minArity_le _ (F.method_mem call)
  rw [Interface.decode_eq_ok_iff, F.take_encode, hlength]
  refine ⟨by omega, F.method call, F.method?_selector _ (F.method_mem call), by omega, ?_⟩
  apply F.read_eq
  rw [map_argument, F.drop_encode, harity, ← F.arguments_length]
  exact wordsAt_flatMap_toBytes (F.arguments call)

/-- Decoding fails for three reasons only: the calldata is shorter than any call's, its selector is
unknown, or it is shorter than a call of that selector. -/
theorem exists_decode_iff (data : Bytes) :
    (∃ call, F.interface.decode data = .ok call) ↔
      4 + 32 * F.interface.minArity ≤ data.length ∧ ∃ call,
        (F.method call).selector = data.take 4 ∧
          4 + 32 * (F.parameters call).length ≤ data.length := by
  constructor
  · rintro ⟨call, hdecode⟩
    obtain ⟨hleast, m, hmethod, hlength, rfl⟩ := Interface.decode_eq_ok_iff.mp hdecode
    obtain ⟨hm, hselector⟩ := Interface.of_method?_eq_some hmethod
    refine ⟨hleast, m.read (argument data), ?_, ?_⟩
    · rw [F.method_read m hm, hselector]
    · rw [← F.arity, F.method_read m hm]
      exact hlength
  · rintro ⟨hleast, call, hselector, hlength⟩
    refine ⟨(F.method call).read (argument data), Interface.decode_eq_ok_iff.mpr ⟨hleast, ?_⟩⟩
    refine ⟨F.method call, ?_, ?_, rfl⟩
    · rw [← hselector]
      exact F.method?_selector _ (F.method_mem call)
    · rw [F.arity]
      exact hlength

/-- What is read is spelled by what it was read from. -/
theorem encode_of_decode {data : Bytes} {call : γ} (h : F.interface.decode data = .ok call) :
    F.encode call = canonical (F.parameters call) data := by
  obtain ⟨-, m, hmethod, hlength, rfl⟩ := Interface.decode_eq_ok_iff.mp h
  obtain ⟨hm, hselector⟩ := Interface.of_method?_eq_some hmethod
  have harity : m.arity = (F.parameters (m.read (argument data))).length := by
    rw [← F.arity, F.method_read m hm]
  have hblock : 32 * (F.parameters (m.read (argument data))).length ≤ (data.drop 4).length := by
    rw [List.length_drop, ← harity]
    omega
  rw [encode, Calldata.encode, canonical, F.method_read m hm, hselector, F.arguments_read m hm,
    ← flatMap_toBytes_denoted _ _ hblock, ← harity, map_argument]

end Format

end Calldata

end PrecompileHost
