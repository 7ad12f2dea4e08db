import Mathlib.Data.Nat.Digits.Defs
import Mathlib.Tactic.Ring
import PrecompileHost.Text.Address
import PrecompileHost.Text.Amount
import PrecompileHost.Text.Lemmas

/-!
Reading numerals. With letters of either case and any number of zeros in front, a numeral reads as
the number whose digits it spells. An amount that is no word is too large, wherever on the way that
is noticed.
-/

namespace PrecompileHost

namespace Text

/-! ### Digits -/

/-- The number that digits denote after others that denote `high`. -/
def valueOf (base high : Nat) (ds : List Nat) : Nat :=
  ds.foldl (fun n d => n * base + d) high

variable {base high d n : Nat} {ds ds' : List Nat} {c : Char} {text : List Char}

@[simp] theorem valueOf_nil : valueOf base high [] = high := rfl

@[simp] theorem valueOf_cons :
    valueOf base high (d :: ds) = valueOf base (high * base + d) ds := rfl

@[simp] theorem valueOf_append :
    valueOf base high (ds ++ ds') = valueOf base (valueOf base high ds) ds' :=
  List.foldl_append

theorem le_valueOf (hbase : 0 < base) : high ≤ valueOf base high ds := by
  induction ds generalizing high with
  | nil => exact Nat.le_refl high
  | cons d ds ih =>
    have hstep : high ≤ high * base := Nat.le_mul_of_pos_right high hbase
    exact (hstep.trans (Nat.le_add_right _ d)).trans ih

@[simp] theorem valueOf_replicate_zero (zeros : Nat) :
    valueOf base 0 (List.replicate zeros 0) = 0 := by
  induction zeros with
  | zero => rfl
  | succ zeros ih => simpa [List.replicate_succ] using ih

/-- The same number from the last digit on. -/
theorem valueOf_eq_ofDigits (base : Nat) (ds : List Nat) :
    valueOf base 0 ds = Nat.ofDigits base ds.reverse := by
  rw [Nat.ofDigits_eq_foldr, List.foldr_reverse]
  simp only [valueOf, Nat.cast_id, Nat.add_comm, Nat.mul_comm]

theorem exists_toDigits (hbase : 1 < base) (n : Nat) :
    ∃ ds, Nat.toDigits base n = ds.map Nat.digitChar ∧ (∀ d ∈ ds, d < base) ∧
      valueOf base 0 ds = n := by
  induction n using Nat.strong_induction_on with
  | _ n ih =>
    by_cases hn : n < base
    · exact ⟨[n], Nat.toDigits_of_lt_base hn, by simpa using hn, by simp⟩
    · have hn : base ≤ n := Nat.not_lt.mp hn
      obtain ⟨ds, hds, hlt, hvalue⟩ := ih (n / base) (Nat.div_lt_self (by omega) hbase)
      have hlast : n % base < base := Nat.mod_lt n (by omega)
      refine ⟨ds ++ [n % base], ?_, ?_, ?_⟩
      · rw [Nat.toDigits_of_base_le hbase hn, hds]
        simp
      · simp only [List.forall_mem_append, List.forall_mem_singleton]
        exact ⟨hlt, hlast⟩
      · simp [hvalue, Nat.div_add_mod']

/-! ### Spelling -/

/-- `Spells base ds text`: the text consists of the given digits, with letters of either case. -/
inductive Spells (base : Nat) : List Nat → List Char → Prop
  | nil : Spells base [] []
  | cons {d : Nat} {ds : List Nat} {c : Char} {rest : List Char} (hd : d < base)
      (hc : c.toLower = Nat.digitChar d) (hrest : Spells base ds rest) :
      Spells base (d :: ds) (c :: rest)

theorem Spells.of_map (hlt : ∀ d ∈ ds, d < base)
    (h : text.map Char.toLower = ds.map Nat.digitChar) : Spells base ds text := by
  induction ds generalizing text with
  | nil =>
    obtain rfl := List.map_eq_nil_iff.mp h
    exact .nil
  | cons d ds ih =>
    obtain ⟨c, rest, rfl, hc, hrest⟩ := List.map_eq_cons_iff.mp h
    obtain ⟨hd, hlt⟩ := List.forall_mem_cons.mp hlt
    exact .cons hd hc (ih hlt hrest)

theorem Spells.lt (h : Spells base ds text) : ∀ d ∈ ds, d < base := by
  induction h with
  | nil => simp
  | cons hd _ _ ih => exact List.forall_mem_cons.mpr ⟨hd, ih⟩

/-- What holds of the first 128 characters holds of a character whose lowercase is one of them. -/
theorem forall_of_toLower {P : Char → Prop} (h : ∀ n < 128, P (Char.ofNat n))
    (hc : c.toLower.toNat < 128) : P c := by
  have hascii : c.toNat < 128 := by
    unfold Char.toLower at hc
    split at hc
    · rename_i hupper
      have hz : c.toNat ≤ 90 := UInt32.le_iff_toNat_le.mp hupper.2
      omega
    · exact hc
  rw [← Char.ofNat_toNat c]
  exact h c.toNat hascii

/-- What holds of a digit in both cases holds however it is written. -/
theorem forall_digit {P : Char → Nat → Prop}
    (h : ∀ d < 16, P (Nat.digitChar d) d ∧ P (Nat.digitChar d).toUpper d)
    (hd : d < 16) (hc : c.toLower = Nat.digitChar d) : P c d := by
  have hcases : ∀ n < 128, ∀ d < 16, (Char.ofNat n).toLower = Nat.digitChar d →
      Char.ofNat n = Nat.digitChar d ∨ Char.ofNat n = (Nat.digitChar d).toUpper := by
    decide +kernel
  have hascii : ∀ d < 16, (Nat.digitChar d).toNat < 128 := by decide
  have hlower : c.toLower.toNat < 128 := by
    rw [hc]
    exact hascii d hd
  have hwritten : c = Nat.digitChar d ∨ c = (Nat.digitChar d).toUpper :=
    forall_of_toLower (P := fun c => c.toLower = Nat.digitChar d →
      c = Nat.digitChar d ∨ c = (Nat.digitChar d).toUpper) (fun n hn => hcases n hn d hd) hlower hc
  rcases hwritten with rfl | rfl
  · exact (h d hd).1
  · exact (h d hd).2

theorem Spells.not_blank (hbase : base ≤ 16) (h : Spells base ds text) :
    ∀ c ∈ text, isBlank c = false := by
  induction h with
  | nil => simp
  | cons hd hc hrest ih =>
    have hfirst := forall_digit (P := fun c _ => isBlank c = false) (by decide +kernel)
      (Nat.lt_of_lt_of_le hd hbase) hc
    exact List.forall_mem_cons.mpr ⟨hfirst, ih⟩

/-- `value?` reads the byte of a digit, in either case. -/
def ReadsDigits (value? : UInt8 → Option Nat) : Prop :=
  ∀ d < 16, value? (Nat.digitChar d).toUInt8 = some d ∧
    value? (Nat.digitChar d).toUpper.toUInt8 = some d

theorem Spells.map_utf8 {value? : UInt8 → Option Nat} (hvalue : ReadsDigits value?)
    (hbase : base ≤ 16) (h : Spells base ds text) : (utf8 text).map value? = ds.map some := by
  induction h with
  | nil => rfl
  | @cons d ds c rest hd hc hrest ih =>
    have hd := Nat.lt_of_lt_of_le hd hbase
    have hsize : c.utf8Size = 1 :=
      forall_digit (P := fun c _ => c.utf8Size = 1) (by decide +kernel) hd hc
    have hread : value? c.toUInt8 = some d :=
      forall_digit (P := fun c d => value? c.toUInt8 = some d) hvalue hd hc
    rw [utf8] at ih
    simp [utf8, String.utf8EncodeChar_eq_singleton hsize, hread, ih]

/-- The digits of a number behind some zeros. -/
def numeral (base zeros n : Nat) : List Char :=
  List.replicate zeros '0' ++ Nat.toDigits base n

theorem exists_numeral (hbase : 1 < base) (zeros n : Nat) :
    ∃ ds, numeral base zeros n = ds.map Nat.digitChar ∧ (∀ d ∈ ds, d < base) ∧
      valueOf base 0 ds = n := by
  obtain ⟨ds, hds, hlt, hvalue⟩ := exists_toDigits hbase n
  refine ⟨List.replicate zeros 0 ++ ds, ?_, ?_, ?_⟩
  · rw [numeral, hds, List.map_append, List.map_replicate]
    rfl
  · intro d hd
    rcases List.mem_append.mp hd with hzero | hd
    · rw [List.eq_of_mem_replicate hzero]
      omega
    · exact hlt d hd
  · simp [hvalue]

theorem exists_spells_decimal (zeros n : Nat) :
    ∃ ds, Spells 10 ds (numeral 10 zeros n) ∧ valueOf 10 0 ds = n := by
  obtain ⟨ds, hds, hlt, hvalue⟩ := exists_numeral (show 1 < 10 by decide) zeros n
  have hdigits : ∀ d < 10, (Nat.digitChar d).toLower = Nat.digitChar d := by decide
  refine ⟨ds, Spells.of_map hlt ?_, hvalue⟩
  rw [hds, List.map_map]
  exact List.map_congr_left fun d hd => hdigits d (hlt d hd)

theorem bare_decimal (zeros n : Nat) :
    Bare (numeral 10 zeros n) ∧ numeral 10 zeros n ≠ [] := by
  obtain ⟨ds, hspells, -⟩ := exists_spells_decimal zeros n
  have hlength : 0 < (Nat.toDigits 10 n).length := Nat.length_toDigits_pos
  refine ⟨Bare.of_forall (hspells.not_blank (by decide)), fun h => ?_⟩
  have hnil := (List.append_eq_nil_iff.mp h).2
  simp [hnil] at hlength

/-- Digits behind the mark 0x, which is itself in either case. -/
theorem exists_of_mark (hlt : ∀ d ∈ ds, d < base)
    (h : text.map Char.toLower = '0' :: 'x' :: ds.map Nat.digitChar) :
    ∃ mark rest, (mark = 'x' ∨ mark = 'X') ∧ text = '0' :: mark :: rest ∧ Spells base ds rest := by
  obtain ⟨zero, text, rfl, hzero, htext⟩ := List.map_eq_cons_iff.mp h
  obtain ⟨mark, rest, rfl, hmark, hrest⟩ := List.map_eq_cons_iff.mp htext
  refine ⟨mark, rest, ?_, ?_, .of_map hlt hrest⟩
  · exact forall_of_toLower (P := fun c => c.toLower = 'x' → c = 'x' ∨ c = 'X')
      (by decide +kernel) (by rw [hmark]; decide) hmark
  · rw [forall_of_toLower (P := fun c => c.toLower = '0' → c = '0')
      (by decide +kernel) (by rw [hzero]; decide) hzero]

theorem bare_of_mark (hlt : ∀ d ∈ ds, d < 16)
    (h : text.map Char.toLower = '0' :: 'x' :: ds.map Nat.digitChar) : Bare text ∧ text ≠ [] := by
  obtain ⟨mark, rest, hmark, rfl, hspells⟩ := exists_of_mark hlt h
  refine ⟨Bare.of_forall ?_, List.cons_ne_nil _ _⟩
  simp only [List.forall_mem_cons]
  refine ⟨by decide, ?_, hspells.not_blank (by decide)⟩
  rcases hmark with rfl | rfl <;> decide

end Text

/-! ### Amounts -/

namespace AmountText

open Text (valueOf Spells numeral utf8)

variable {radix : Nat} {ds : List Nat} {bytes : Bytes} {text : List Char}

theorem readsDigits_alphanumericValue? : Text.ReadsDigits alphanumericValue? := by
  unfold Text.ReadsDigits
  decide

theorem digitOf_eq {b : UInt8} {d : Nat} (hb : alphanumericValue? b = some d) (hd : d < radix) :
    digitOf radix b = .ok d := by
  simp [digitOf, hb, hd]

/-- It does not matter after how many digits the value is checked: it only grows. -/
theorem readDecimal_eq (hlt : ∀ d ∈ ds, d < 10)
    (h : bytes.map alphanumericValue? = ds.map some) (count value : Nat) :
    readDecimal count value bytes =
      if valueOf 10 value ds < Word.size then .ok (valueOf 10 value ds) else .error .tooLarge := by
  induction ds generalizing bytes count value with
  | nil =>
    obtain rfl := List.map_eq_nil_iff.mp h
    rfl
  | cons d ds ih =>
    obtain ⟨b, rest, rfl, hb, hrest⟩ := List.map_eq_cons_iff.mp h
    obtain ⟨hd, hlt⟩ := List.forall_mem_cons.mp hlt
    rw [readDecimal, digitOf_eq hb hd, Text.valueOf_cons]
    simp only
    split
    · -- what is too large at a check is too large at the end
      rename_i hcheck
      obtain ⟨-, hlarge⟩ : _ ∧ Word.size ≤ value * 10 + d := by simpa using hcheck
      have hfinal : ¬ valueOf 10 (value * 10 + d) ds < Word.size :=
        Nat.not_lt.mpr (hlarge.trans (Text.le_valueOf (by decide)))
      rw [if_neg hfinal]
    · exact ih hlt hrest (count + 1) (value * 10 + d)

theorem readFromRight_eq (hlt : ∀ d ∈ ds, d < radix)
    (h : bytes.map alphanumericValue? = ds.map some) (weight : Nat) {value : Nat}
    (hvalue : value < Word.size) :
    readFromRight radix weight value bytes =
      if value + weight * Nat.ofDigits radix ds < Word.size then
        .ok (value + weight * Nat.ofDigits radix ds)
      else .error .tooLarge := by
  induction ds generalizing bytes weight value with
  | nil =>
    obtain rfl := List.map_eq_nil_iff.mp h
    simp [readFromRight, hvalue]
  | cons d ds ih =>
    obtain ⟨b, rest, rfl, hb, hrest⟩ := List.map_eq_cons_iff.mp h
    obtain ⟨hd, hlt⟩ := List.forall_mem_cons.mp hlt
    have hnumber : value + weight * Nat.ofDigits radix (d :: ds) =
        value + d * weight + weight * radix * Nat.ofDigits radix ds := by
      rw [Nat.ofDigits_cons]
      ring
    rw [readFromRight, digitOf_eq hb hd, hnumber]
    simp only
    split
    · rename_i hlarge
      have hfinal : ¬ value + d * weight + weight * radix * Nat.ofDigits radix ds < Word.size := by
        omega
      rw [if_neg hfinal]
    · rename_i hfits
      exact ih hlt hrest (weight * radix) (Nat.not_le.mp hfits)

theorem readRadix_eq (hlt : ∀ d ∈ ds, d < radix)
    (h : bytes.map alphanumericValue? = ds.map some) :
    readRadix radix bytes =
      if valueOf radix 0 ds < Word.size then .ok (valueOf radix 0 ds) else .error .tooLarge := by
  have hreverse : bytes.reverse.map alphanumericValue? = ds.reverse.map some := by
    rw [List.map_reverse, h, List.map_reverse]
  rw [readRadix, readFromRight_eq (by simpa using hlt) hreverse 1 (by decide),
    Text.valueOf_eq_ofDigits]
  simp

/-- There are no underscores among digits. -/
theorem digits_eq (h : Spells radix ds text) (hradix : radix ≤ 16) :
    readMarked.digits text = utf8 text := by
  have hread := h.map_utf8 readsDigits_alphanumericValue? hradix
  refine List.filter_eq_self.mpr fun b hb => ?_
  have hsome : alphanumericValue? b ∈ ds.map some := by
    rw [← hread]
    exact List.mem_map_of_mem hb
  obtain ⟨d, -, hd⟩ := List.mem_map.mp hsome
  have hne : b ≠ underscore := by
    rintro rfl
    cases hd
  simpa using hne

/-- Digits alone carry no mark. -/
theorem readMarked_of_spells (h : Spells 10 ds text) :
    readMarked text = readDecimal 0 0 (readMarked.digits text) := by
  have hletters : ∀ d < 10, Nat.digitChar d ∉ ['x', 'X', 'o', 'O', 'b', 'B'].map Char.toLower := by
    decide
  have hsecond {first second : Char} {rest : List Char}
      (hs : Spells 10 ds (first :: second :: rest))
      (hmem : second ∈ ['x', 'X', 'o', 'O', 'b', 'B']) : False := by
    cases hs with
    | cons _ _ hs =>
      cases hs with
      | cons hd hc _ => exact hletters _ hd (hc ▸ List.mem_map_of_mem hmem)
  unfold readMarked
  split
  all_goals first
    | exact (hsecond h (by decide)).elim
    | rfl

end AmountText

namespace Word

open Text (numeral)

theorem ofText_decimal (zeros n : Nat) :
    ofText (numeral 10 zeros n) =
      if n < size then .ok (BitVec.ofNat 256 n) else .error .tooLarge := by
  obtain ⟨ds, hspells, hvalue⟩ := Text.exists_spells_decimal zeros n
  have hread := hspells.map_utf8 AmountText.readsDigits_alphanumericValue? (by decide)
  rw [ofText, AmountText.readMarked_of_spells hspells, AmountText.digits_eq hspells (by decide),
    AmountText.readDecimal_eq hspells.lt hread, hvalue]
  split <;> rfl

theorem ofText_hex {text : List Char} {zeros n : Nat}
    (h : text.map Char.toLower = '0' :: 'x' :: numeral 16 zeros n) :
    ofText text = if n < size then .ok (BitVec.ofNat 256 n) else .error .tooLarge := by
  obtain ⟨ds, hds, hlt, hvalue⟩ := Text.exists_numeral (show 1 < 16 by decide) zeros n
  rw [hds] at h
  obtain ⟨mark, rest, hmark, rfl, hspells⟩ := Text.exists_of_mark hlt h
  have hread := hspells.map_utf8 AmountText.readsDigits_alphanumericValue? (by decide)
  have hradix : AmountText.readMarked ('0' :: mark :: rest) =
      AmountText.readRadix 16 (AmountText.readMarked.digits rest) := by
    rcases hmark with rfl | rfl <;> rfl
  rw [ofText, hradix, AmountText.digits_eq hspells (by decide),
    AmountText.readRadix_eq hspells.lt hread, hvalue]
  split <;> rfl

end Word

/-! ### Addresses -/

namespace Hex

open Text (valueOf Spells)

theorem readsDigits_value? : Text.ReadsDigits value? := by
  unfold Text.ReadsDigits
  decide

theorem readDigits_eq {ds : List Nat} {bytes : Bytes} (h : bytes.map value? = ds.map some)
    (position value : Nat) : readDigits position value bytes = .ok (valueOf 16 value ds) := by
  induction ds generalizing bytes position value with
  | nil =>
    obtain rfl := List.map_eq_nil_iff.mp h
    rfl
  | cons d ds ih =>
    obtain ⟨b, rest, rfl, hb, hrest⟩ := List.map_eq_cons_iff.mp h
    rw [readDigits, hb]
    exact ih hrest (position + 1) (value * 16 + d)

theorem exists_ofBytes_lowBytes (k value : Nat) :
    ∃ ds, ofBytes (Word.lowBytes k value) = ds.map Nat.digitChar ∧ (∀ d ∈ ds, d < 16) ∧
      ds.length = 2 * k ∧ valueOf 16 0 ds = value % 256 ^ k := by
  induction k generalizing value with
  | zero => exact ⟨[], rfl, by simp, rfl, by simp [Nat.mod_one]⟩
  | succ k ih =>
    obtain ⟨ds, hds, hlt, hlength, hvalue⟩ := ih (value / 256)
    have hdigit : ∀ d < 16, digit d = Nat.digitChar d := by decide
    have hhigh : value % 256 / 16 < 16 := by omega
    have hlow : value % 16 < 16 := by omega
    refine ⟨ds ++ [value % 256 / 16, value % 16], ?_, ?_, ?_, ?_⟩
    · rw [ofBytes] at hds
      simp [Word.lowBytes, ofBytes, ofByte, hds, hdigit _ hhigh, hdigit _ hlow]
    · simp only [List.forall_mem_append, List.forall_mem_cons]
      exact ⟨hlt, hhigh, hlow, List.forall_mem_nil _⟩
    · simp [hlength]
      omega
    · have hsplit : value % 256 ^ (k + 1) = value % 256 + 256 * (value / 256 % 256 ^ k) := by
        rw [Nat.pow_succ, Nat.mul_comm, Nat.mod_mul]
      rw [Text.valueOf_append, hvalue, hsplit]
      simp only [Text.valueOf_cons, Text.valueOf_nil]
      omega

end Hex

namespace Address

theorem exists_text (a : Address) :
    ∃ ds, a.text.toList = '0' :: 'x' :: ds.map Nat.digitChar ∧ (∀ d ∈ ds, d < 16) ∧
      ds.length = 40 ∧ Text.valueOf 16 0 ds = a.toNat := by
  obtain ⟨ds, hds, hlt, hlength, hvalue⟩ := Hex.exists_ofBytes_lowBytes 20 a.toNat
  refine ⟨ds, ?_, hlt, hlength, ?_⟩
  · simp [text, Bytes.text, hds]
  · rw [hvalue]
    exact Nat.mod_eq_of_lt a.isLt

/-- An address is read from its own text, with letters of either case. -/
theorem ofText_text {a : Address} {text : List Char}
    (h : text.map Char.toLower = a.text.toList) : ofText text = .ok a := by
  obtain ⟨ds, hds, hlt, hlength, hvalue⟩ := a.exists_text
  rw [hds] at h
  obtain ⟨mark, rest, hmark, rfl, hspells⟩ := Text.exists_of_mark hlt h
  have hread := hspells.map_utf8 Hex.readsDigits_value? (by decide)
  have hmarked : Hex.dropMark (Text.utf8 ('0' :: mark :: rest)) = Text.utf8 rest := by
    rcases hmark with rfl | rfl <;> rfl
  have hbytes : (Text.utf8 rest).length = 40 := by
    have hlengths := congrArg List.length hread
    simpa [hlength] using hlengths
  rw [ofText, hmarked]
  simp [hbytes, Hex.readDigits_eq hread, hvalue, Except.map]

end Address

end PrecompileHost
