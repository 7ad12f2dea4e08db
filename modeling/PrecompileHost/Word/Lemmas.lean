import Mathlib.Algebra.Ring.Nat
import PrecompileHost.Word

/-!
Words and their bytes: reading the 32 bytes of a word gives the word back, and 32 bytes are the
bytes of the word they denote.
-/

namespace PrecompileHost

namespace Word

/-- Reading the low bytes of `value` after others that denote `high`. -/
theorem foldl_lowBytes (n value high : Nat) :
    (lowBytes n value).foldl (fun n b => n * 256 + b.toNat) high =
      high * 256 ^ n + value % 256 ^ n := by
  induction n generalizing value with
  | zero => simp [lowBytes, Nat.mod_one]
  | succ n ih =>
    have hsplit : value % 256 ^ (n + 1) = value % 256 + 256 * (value / 256 % 256 ^ n) := by
      rw [Nat.pow_succ, Nat.mul_comm, Nat.mod_mul]
    have hhigh : high * 256 ^ (n + 1) = high * 256 ^ n * 256 := by
      rw [Nat.pow_succ, Nat.mul_assoc]
    rw [lowBytes, List.foldl_append, ih, hsplit, hhigh]
    simp only [List.foldl_cons, List.foldl_nil, UInt8.toNat_ofNat']
    omega

@[simp] theorem ofBytes_toBytes (w : Word) : ofBytes w.toBytes = w := by
  have hw : w.toNat % 256 ^ 32 = w.toNat := Nat.mod_eq_of_lt w.isLt
  rw [ofBytes, toBytes, foldl_lowBytes, hw]
  simp

theorem lowBytes_succ (n value : Nat) :
    lowBytes (n + 1) value = UInt8.ofNat (value / 256 ^ n) :: lowBytes n value := by
  induction n generalizing value with
  | zero => simp [lowBytes]
  | succ n ih =>
    have hdiv : value / 256 / 256 ^ n = value / 256 ^ (n + 1) := by
      rw [Nat.div_div_eq_div_mul, Nat.pow_succ, Nat.mul_comm]
    rw [lowBytes, ih, hdiv]
    rfl

/-- Bytes read after others that denote `high` denote `high` followed by their own number. -/
theorem foldl_bytes (bytes : Bytes) (high : Nat) :
    ∃ low < 256 ^ bytes.length,
      bytes.foldl (fun n b => n * 256 + b.toNat) high = high * 256 ^ bytes.length + low := by
  induction bytes generalizing high with
  | nil => exact ⟨0, by simp, by simp⟩
  | cons b rest ih =>
    obtain ⟨low, hlow, heq⟩ := ih (high * 256 + b.toNat)
    have hb : b.toNat + 1 ≤ 256 := b.toNat_lt
    refine ⟨b.toNat * 256 ^ rest.length + low, ?_, ?_⟩
    · have := Nat.mul_le_mul_right (256 ^ rest.length) hb
      rw [List.length_cons, Nat.pow_succ]
      rw [Nat.add_mul] at this
      omega
    · rw [List.foldl_cons, heq, List.length_cons, Nat.pow_succ, Nat.add_mul]
      rw [Nat.mul_assoc, Nat.mul_comm 256 (256 ^ rest.length), Nat.add_assoc]

theorem lowBytes_foldl (bytes : Bytes) (high : Nat) :
    lowBytes bytes.length (bytes.foldl (fun n b => n * 256 + b.toNat) high) = bytes := by
  induction bytes generalizing high with
  | nil => rfl
  | cons b rest ih =>
    obtain ⟨low, hlow, heq⟩ := foldl_bytes rest (high * 256 + b.toNat)
    have hfirst : (rest.foldl (fun n b => n * 256 + b.toNat) (high * 256 + b.toNat)) /
        256 ^ rest.length = high * 256 + b.toNat := by
      rw [heq, Nat.mul_comm, Nat.mul_add_div (Nat.pow_pos (by decide)),
        Nat.div_eq_of_lt hlow, Nat.add_zero]
    have hbyte : UInt8.ofNat (high * 256 + b.toNat) = b := by
      apply UInt8.toNat_inj.mp
      have := b.toNat_lt
      simp only [UInt8.toNat_ofNat']
      omega
    rw [List.foldl_cons, List.length_cons, lowBytes_succ, hfirst, hbyte, ih]

theorem toBytes_ofBytes {bytes : Bytes} (h : bytes.length = 32) :
    (ofBytes bytes).toBytes = bytes := by
  obtain ⟨low, hlow, heq⟩ := foldl_bytes bytes 0
  have hlt : bytes.foldl (fun n b => n * 256 + b.toNat) 0 < 2 ^ 256 := by
    rw [heq, Nat.zero_mul, Nat.zero_add]
    rw [h] at hlow
    exact hlow
  rw [toBytes, ofBytes, BitVec.toNat_ofNat, Nat.mod_eq_of_lt hlt, ← h, lowBytes_foldl]

end Word

end PrecompileHost
