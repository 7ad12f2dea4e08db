/-!
The quantities every other module counts in: 160-bit addresses, 256-bit words, byte strings and
64-bit gas, with the arithmetic that says when a result does not fit.
-/

namespace PrecompileHost

/-- An account's address. -/
abbrev Address := BitVec 160

/-- A 256-bit word: an amount, a storage key or a storage value. -/
abbrev Word := BitVec 256

abbrev Bytes := List UInt8

abbrev Gas := UInt64

namespace Word

/-- The number of words, 2 to the 256th. -/
abbrev size : Nat := 0x10000000000000000000000000000000000000000000000000000000000000000

def largest : Word := BitVec.allOnes 256

/-- The sum, if it is a word. -/
def add? (a b : Word) : Option Word :=
  if a.toNat + b.toNat < size then some (a + b) else none

/-- The difference, if it is not negative. -/
def sub? (a b : Word) : Option Word :=
  if b.toNat ≤ a.toNat then some (a - b) else none

/-- The number that a byte string denotes, most significant byte first. -/
def ofBytes (bytes : Bytes) : Word :=
  BitVec.ofNat 256 (bytes.foldl (fun n b => n * 256 + b.toNat) 0)

/-- The `n` low bytes of a number, most significant first. -/
def lowBytes : Nat → Nat → Bytes
  | 0, _ => []
  | n + 1, value => lowBytes n (value / 256) ++ [UInt8.ofNat value]

/-- The 32 bytes of a word, most significant first. -/
def toBytes (w : Word) : Bytes :=
  lowBytes 32 w.toNat

def ofBool (b : Bool) : Word :=
  if b then 1 else 0

/-- The nearest 64-bit number: larger words become the largest one. -/
def clampToUInt64 (w : Word) : UInt64 :=
  UInt64.ofNat (min w.toNat (UInt64.size - 1))

theorem toNat_of_add?_eq_some {a b c : Word} (h : a.add? b = some c) :
    c.toNat = a.toNat + b.toNat := by
  unfold add? at h
  split at h
  · cases h
    rw [BitVec.toNat_add]
    exact Nat.mod_eq_of_lt ‹_›
  · cases h

theorem toNat_of_sub?_eq_some {a b c : Word} (h : a.sub? b = some c) :
    c.toNat + b.toNat = a.toNat := by
  unfold sub? at h
  split at h
  · cases h
    have ha := a.isLt
    have hb := b.isLt
    rw [BitVec.toNat_sub]
    omega
  · cases h

theorem add?_eq_none_iff {a b : Word} : a.add? b = none ↔ size ≤ a.toNat + b.toNat := by
  unfold add?
  split
  · exact ⟨fun h => (nomatch h), fun h => by omega⟩
  · exact ⟨fun _ => by omega, fun _ => rfl⟩

theorem sub?_eq_none_iff {a b : Word} : a.sub? b = none ↔ a.toNat < b.toNat := by
  unfold sub?
  split
  · exact ⟨fun h => (nomatch h), fun h => by omega⟩
  · exact ⟨fun _ => by omega, fun _ => rfl⟩

@[simp] theorem length_lowBytes (n value : Nat) : (lowBytes n value).length = n := by
  induction n generalizing value with
  | zero => rfl
  | succ n ih => simp [lowBytes, ih]

@[simp] theorem length_toBytes (w : Word) : w.toBytes.length = 32 := by
  simp [toBytes]

end Word

namespace Address

/-- The low 20 bytes of a word; the upper 12 do not matter. -/
def ofWord (w : Word) : Address :=
  w.setWidth 160

/-- The address as a word, padded with zeros on the left. -/
def toWord (a : Address) : Word :=
  a.setWidth 256

@[simp] theorem ofWord_toWord (a : Address) : ofWord a.toWord = a := by
  simp [ofWord, toWord]

theorem toWord_inj {a b : Address} : a.toWord = b.toWord ↔ a = b := by
  constructor
  · intro h
    rw [← ofWord_toWord a, h, ofWord_toWord]
  · rintro rfl
    rfl

end Address

namespace Gas

def largest : Gas := UInt64.ofNat (UInt64.size - 1)

/-- What is left after spending `amount`, if there is enough. -/
def sub? (gas amount : Gas) : Option Gas :=
  if amount ≤ gas then some (gas - amount) else none

/-- The sum, or the largest gas amount if the sum does not fit. -/
def addSaturating (a b : Gas) : Gas :=
  if a.toNat + b.toNat < UInt64.size then a + b else largest

/-- The product, or the largest gas amount if the product does not fit. -/
def mulSaturating (a b : Gas) : Gas :=
  if a.toNat * b.toNat < UInt64.size then a * b else largest

theorem sub?_of_le {gas amount : Gas} (h : amount ≤ gas) : sub? gas amount = some (gas - amount) :=
  if_pos h

theorem le_of_sub?_eq_some {gas amount left : Gas} (h : sub? gas amount = some left) :
    amount ≤ gas := by
  refine Decidable.byContradiction fun hlt => ?_
  rw [sub?, if_neg hlt] at h
  cases h

theorem toNat_of_sub?_eq_some {gas amount left : Gas} (h : sub? gas amount = some left) :
    left.toNat + amount.toNat = gas.toNat := by
  unfold sub? at h
  split at h
  · cases h
    rename_i hle
    have hle' : amount.toNat ≤ gas.toNat := UInt64.le_iff_toNat_le.mp hle
    rw [UInt64.toNat_sub_of_le _ _ hle]
    omega
  · cases h

theorem sub?_eq_none_iff {gas amount : Gas} : sub? gas amount = none ↔ gas < amount := by
  unfold sub?
  split
  · rename_i h
    exact ⟨fun heq => (nomatch heq), fun hlt => absurd h (UInt64.not_le.mpr hlt)⟩
  · rename_i h
    exact ⟨fun _ => UInt64.not_le.mp h, fun _ => rfl⟩

end Gas

end PrecompileHost
