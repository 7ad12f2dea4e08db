import PrecompileHost.Config.Depth
import PrecompileHost.Text.Numeral

/-!
The depth limit read from text, as a grammar. Whatever the text, reading it has one of four
results, and the text between the blanks alone tells which: a number, if that is digits behind at
most one plus sign; too large, as soon as a run of digits at its start denotes too large a number,
whatever follows; empty; and in all other cases a bad digit. An environment variable may besides be
missing or blank.
-/

namespace PrecompileHost

namespace Text

/-- Nothing but ASCII digits. -/
def Digits (text : List Char) : Prop :=
  ∀ c ∈ text, c.isDigit = true

instance (text : List Char) : Decidable (Digits text) :=
  List.decidableBAll (Char.isDigit · = true) text

/-- The text behind its plus sign, or all of it where it starts with none. -/
def unsigned : List Char → List Char
  | '+' :: rest => rest
  | text => text

/-- `t` is what is left of the text without the blanks at its ends. -/
def Stripped (text t : List Char) : Prop :=
  Bare t ∧ ∃ left right, Blank left ∧ Blank right ∧ text = left ++ t ++ right

theorem digits_cons {c : Char} {rest : List Char} :
    Digits (c :: rest) ↔ c.isDigit = true ∧ Digits rest :=
  List.forall_mem_cons

theorem unsigned_of_ne {text : List Char} (h : ∀ rest, text ≠ '+' :: rest) :
    unsigned text = text := by
  fun_cases unsigned text with
  | case1 rest => exact absurd rfl (h rest)
  | case2 => rfl

/-- Digits carry no sign. -/
theorem Digits.unsigned_eq {text : List Char} (h : Digits text) : unsigned text = text := by
  refine unsigned_of_ne ?_
  rintro rest rfl
  exact absurd (digits_cons.mp h).1 (by decide)

/-- What is left of a text is determined by it. -/
theorem stripped_iff {text t : List Char} : Stripped text t ↔ t = trim text := by
  constructor
  · rintro ⟨hbare, left, right, hleft, hright, rfl⟩
    exact (trim_append hleft hbare hright).symm
  · rintro rfl
    obtain ⟨left, right, hleft, hright, htext⟩ := exists_append_trim text
    exact ⟨bare_trim text, left, right, hleft, hright, htext.symm⟩

/-- The number of digits that follow others that denote `value`. -/
theorem ofDigitChars_cons (c : Char) (rest : List Char) (value : Nat) :
    Nat.ofDigitChars 10 (c :: rest) value =
      Nat.ofDigitChars 10 rest (value * 10 + (c.toNat - '0'.toNat)) := by
  rw [Nat.ofDigitChars_cons, Nat.mul_comm]

/-- Further digits only make a number larger. -/
theorem le_ofDigitChars (digits : List Char) (value : Nat) :
    value ≤ Nat.ofDigitChars 10 digits value := by
  induction digits generalizing value with
  | nil => exact Nat.le_refl value
  | cons c rest ih =>
    rw [ofDigitChars_cons]
    have hstep : value ≤ value * 10 + (c.toNat - '0'.toNat) := by omega
    exact hstep.trans (ih _)

end Text

namespace Config

open Text (Blank Digits Stripped numeral unsigned utf8)

/-- One or more digits, behind at most one plus sign, that denote a number of 64 bits. -/
structure Depicts (t : List Char) (n : Nat) : Prop where
  nonempty : unsigned t ≠ []
  digits : Digits (unsigned t)
  value : Nat.ofDigitChars 10 (unsigned t) 0 = n
  fits : n < UInt64.size

/-- Digits at the start, a plus sign aside, denote a number that 64 bits do not hold. -/
def Overflows (t : List Char) : Prop :=
  ∃ digits, digits <+: unsigned t ∧ Digits digits ∧ UInt64.size ≤ Nat.ofDigitChars 10 digits 0

/-- The results of reading a depth from a text that is `t` between its blanks. -/
structure DepthRead (t : List Char) (result : Except DepthError Nat) : Prop where
  ok (n : Nat) : result = .ok n ↔ Depicts t n
  empty : result = .error .empty ↔ t = []
  tooLarge : result = .error .tooLarge ↔ Overflows t
  invalidDigit : result = .error .invalidDigit ↔
    t ≠ [] ∧ (∀ n, ¬ Depicts t n) ∧ ¬ Overflows t

/-! ### Digits -/

section Digits

variable {text : List Char} {value n : Nat}

theorem readDepthDigits_eq_ok_iff (hvalue : value < UInt64.size) :
    readDepthDigits value text = .ok n ↔
      Digits text ∧ Nat.ofDigitChars 10 text value = n ∧ n < UInt64.size := by
  fun_induction readDepthDigits value text with
  | case1 value =>
    rw [Nat.ofDigitChars_nil, Except.ok.injEq]
    constructor
    · rintro rfl
      exact ⟨List.forall_mem_nil _, rfl, hvalue⟩
    · exact fun h => h.2.1
  | case2 value c rest hc next hfits ih =>
    rw [ih hfits, Text.digits_cons, Text.ofDigitChars_cons]
    exact and_congr_left fun _ => (and_iff_right hc).symm
  | case3 value c rest hc next hlarge =>
    -- what does not fit here does not fit at the end
    refine iff_of_false nofun ?_
    rintro ⟨-, rfl, hfits⟩
    rw [Text.ofDigitChars_cons] at hfits
    exact hlarge ((Text.le_ofDigitChars rest next).trans_lt hfits)
  | case4 value c rest hc =>
    exact iff_of_false nofun fun h => hc (Text.digits_cons.mp h.1).1

theorem readDepthDigits_eq_tooLarge_iff (hvalue : value < UInt64.size) :
    readDepthDigits value text = .error .tooLarge ↔
      ∃ digits, digits <+: text ∧ Digits digits ∧
        UInt64.size ≤ Nat.ofDigitChars 10 digits value := by
  fun_induction readDepthDigits value text with
  | case1 value =>
    refine iff_of_false nofun ?_
    rintro ⟨digits, hprefix, -, hlarge⟩
    rw [List.prefix_nil.mp hprefix] at hlarge
    exact Nat.not_le.mpr hvalue hlarge
  | case2 value c rest hc next hfits ih =>
    rw [ih hfits]
    constructor
    · rintro ⟨digits, hprefix, hdigits, hlarge⟩
      refine ⟨c :: digits, (List.prefix_cons_inj c).mpr hprefix,
        Text.digits_cons.mpr ⟨hc, hdigits⟩, ?_⟩
      rwa [Text.ofDigitChars_cons]
    · rintro ⟨digits, hprefix, hdigits, hlarge⟩
      rcases List.prefix_cons_iff.mp hprefix with rfl | ⟨digits, rfl, hrest⟩
      · exact absurd hlarge (Nat.not_le.mpr hvalue)
      · rw [Text.ofDigitChars_cons] at hlarge
        exact ⟨digits, hrest, (Text.digits_cons.mp hdigits).2, hlarge⟩
  | case3 value c rest hc next hlarge =>
    refine iff_of_true rfl ⟨[c], ⟨rest, rfl⟩, Text.digits_cons.mpr ⟨hc, List.forall_mem_nil _⟩, ?_⟩
    rw [Text.ofDigitChars_cons]
    exact Nat.not_lt.mp hlarge
  | case4 value c rest hc =>
    refine iff_of_false nofun ?_
    rintro ⟨digits, hprefix, hdigits, hlarge⟩
    rcases List.prefix_cons_iff.mp hprefix with rfl | ⟨digits, rfl, -⟩
    · exact absurd hlarge (Nat.not_le.mpr hvalue)
    · exact hc (Text.digits_cons.mp hdigits).1

theorem readDepthDigits_ne_empty : readDepthDigits value text ≠ .error .empty := by
  fun_induction readDepthDigits value text with
  | case1 | case3 | case4 => exact nofun
  | case2 value c rest hc next hfits ih => exact ih

end Digits

/-! ### Numbers -/

section Numbers

variable {t : List Char}

/-- A sign alone is as little a number as nothing at all. -/
theorem readDepthNumber_of_unsigned_eq_nil (h : unsigned t = []) :
    readDepthNumber t = .error (if t = [] then .empty else .invalidDigit) := by
  fun_cases unsigned t with
  | case1 rest =>
    change rest = [] at h
    rw [h]
    rfl
  | case2 _ hsigned =>
    rw [Text.unsigned_of_ne hsigned] at h
    rw [h]
    rfl

theorem readDepthNumber_of_unsigned_ne_nil (h : unsigned t ≠ []) :
    readDepthNumber t = readDepthDigits 0 (unsigned t) := by
  fun_cases readDepthNumber t with
  | case1 | case2 => exact absurd rfl h
  | case3 digits _ => rfl
  | case4 _ _ _ hsigned => rw [Text.unsigned_of_ne hsigned]

theorem readDepthNumber_eq_ok_iff {n : Nat} : readDepthNumber t = .ok n ↔ Depicts t n := by
  by_cases hunsigned : unsigned t = []
  · rw [readDepthNumber_of_unsigned_eq_nil hunsigned]
    exact iff_of_false nofun fun h => h.nonempty hunsigned
  · rw [readDepthNumber_of_unsigned_ne_nil hunsigned, readDepthDigits_eq_ok_iff (by decide)]
    exact ⟨fun h => ⟨hunsigned, h.1, h.2.1, h.2.2⟩, fun h => ⟨h.digits, h.value, h.fits⟩⟩

theorem readDepthNumber_eq_empty_iff : readDepthNumber t = .error .empty ↔ t = [] := by
  by_cases hunsigned : unsigned t = []
  · rw [readDepthNumber_of_unsigned_eq_nil hunsigned]
    by_cases ht : t = [] <;> simp [ht]
  · rw [readDepthNumber_of_unsigned_ne_nil hunsigned]
    refine iff_of_false readDepthDigits_ne_empty ?_
    rintro rfl
    exact hunsigned rfl

theorem readDepthNumber_eq_tooLarge_iff : readDepthNumber t = .error .tooLarge ↔ Overflows t := by
  by_cases hunsigned : unsigned t = []
  · rw [readDepthNumber_of_unsigned_eq_nil hunsigned]
    refine iff_of_false (by split <;> exact nofun) ?_
    rintro ⟨digits, hprefix, -, hlarge⟩
    rw [hunsigned] at hprefix
    rw [List.prefix_nil.mp hprefix] at hlarge
    exact absurd hlarge (by decide)
  · rw [readDepthNumber_of_unsigned_ne_nil hunsigned]
    exact readDepthDigits_eq_tooLarge_iff (by decide)

/-- A bad digit is what is left when no other result is due. -/
theorem depthRead_readDepthNumber (t : List Char) : DepthRead t (readDepthNumber t) where
  ok _ := readDepthNumber_eq_ok_iff
  empty := readDepthNumber_eq_empty_iff
  tooLarge := readDepthNumber_eq_tooLarge_iff
  invalidDigit := by
    rw [ne_eq, ← readDepthNumber_eq_empty_iff, ← readDepthNumber_eq_tooLarge_iff]
    simp only [← readDepthNumber_eq_ok_iff]
    cases readDepthNumber t with
    | ok n => simp
    | error e => cases e <;> simp

end Numbers

/-- Blanks, a numeral with any number of zeros in front, and blanks again. -/
theorem parseDepth_numeral {left right : List Char} {n : Nat} (zeros : Nat)
    (hn : n < UInt64.size) (hleft : Blank left) (hright : Blank right) :
    parseDepth (left ++ numeral 10 zeros n ++ right) = .ok n := by
  obtain ⟨hbare, hne⟩ := Text.bare_decimal zeros n
  have hdigits : Digits (numeral 10 zeros n) := by
    intro c hc
    rcases List.mem_append.mp hc with hzero | hc
    · rw [List.eq_of_mem_replicate hzero]
      rfl
    · exact Nat.isDigit_of_mem_toDigits (by decide) (by decide) hc
  have hvalue : Nat.ofDigitChars 10 (numeral 10 zeros n) 0 = n := by
    rw [numeral, Nat.ofDigitChars_append, Nat.ofDigitChars_replicate_zero, Nat.mul_zero,
      Nat.ofDigitChars_ten_toDigits]
  have hunsigned := hdigits.unsigned_eq
  rw [parseDepth, Text.trim_append hleft hbare hright, readDepthNumber_eq_ok_iff]
  refine ⟨?_, ?_, ?_, hn⟩
  · rwa [hunsigned]
  · rwa [hunsigned]
  · rwa [hunsigned]

/-! ### The environment -/

/-- The results of reading a depth from an environment variable of the given value, if it has
one. -/
structure EnvRead (value : Option Bytes) (result : Except DepthSettingError Nat) : Prop where
  missing : result = .error .missing ↔ ∀ text, value ≠ some (utf8 text)
  blank : result = .error .blank ↔ ∃ text, value = some (utf8 text) ∧ Blank text
  text (text : List Char) : value = some (utf8 text) → ¬ Blank text →
    result = (parseDepth text).mapError .invalid

theorem bind_ofUTF8?_eq_some_iff {value : Option Bytes} {text : List Char} :
    value.bind Text.ofUTF8? = some text ↔ value = some (utf8 text) := by
  rw [Option.bind_eq_some_iff]
  simp only [Text.ofUTF8?_eq_some_iff, exists_eq_right]

theorem depthFromEnv_of_none {value : Option Bytes} (h : value.bind Text.ofUTF8? = none) :
    depthFromEnv value = .error .missing := by
  rw [depthFromEnv, h]

theorem depthFromEnv_of_some {value : Option Bytes} {text : List Char}
    (h : value.bind Text.ofUTF8? = some text) :
    depthFromEnv value =
      if Text.trim text = [] then .error .blank else (parseDepth text).mapError .invalid := by
  rw [depthFromEnv, h]

theorem mapError_invalid_ne (result : Except DepthError Nat) {error : DepthSettingError}
    (herror : ∀ e, error ≠ .invalid e) :
    result.mapError DepthSettingError.invalid ≠ .error error := by
  cases result with
  | ok n => exact nofun
  | error e =>
    rintro ⟨⟩
    exact herror e rfl

theorem envRead_depthFromEnv (value : Option Bytes) : EnvRead value (depthFromEnv value) := by
  cases hvalue : value.bind Text.ofUTF8? with
  | none =>
    have hno (text : List Char) : value ≠ some (utf8 text) := by
      intro htext
      rw [bind_ofUTF8?_eq_some_iff.mpr htext] at hvalue
      cases hvalue
    rw [depthFromEnv_of_none hvalue]
    refine ⟨iff_of_true rfl hno, iff_of_false nofun ?_, fun text htext => absurd htext (hno text)⟩
    rintro ⟨text, htext, -⟩
    exact hno text htext
  | some text =>
    have htext := bind_ofUTF8?_eq_some_iff.mp hvalue
    have hunique (other : List Char) (hother : value = some (utf8 other)) : other = text := by
      rw [bind_ofUTF8?_eq_some_iff.mpr hother] at hvalue
      exact Option.some.inj hvalue
    rw [depthFromEnv_of_some hvalue]
    by_cases hblank : Blank text
    · rw [if_pos (Text.trim_eq_nil_iff.mpr hblank)]
      refine ⟨iff_of_false nofun fun hno => hno text htext,
        iff_of_true rfl ⟨text, htext, hblank⟩, fun other hother hpresent => ?_⟩
      rw [hunique other hother] at hpresent
      exact absurd hblank hpresent
    · rw [if_neg (mt Text.trim_eq_nil_iff.mp hblank)]
      constructor
      case missing =>
        exact iff_of_false (mapError_invalid_ne _ nofun) fun hno => hno text htext
      case blank =>
        refine iff_of_false (mapError_invalid_ne _ nofun) ?_
        rintro ⟨other, hother, hall⟩
        exact hblank (hunique other hother ▸ hall)
      case text =>
        intro other hother _
        rw [hunique other hother]

/-- Where nothing is set the default holds, and in all other cases it does not come in. -/
structure DefaultRead (value : Option Bytes) (result : Except DepthSettingError Nat) : Prop where
  missing : depthFromEnv value = .error .missing → result = .ok CallContext.defaultMaxDepth
  present : depthFromEnv value ≠ .error .missing → result = depthFromEnv value

theorem defaultRead_depthFromEnvOrDefault (value : Option Bytes) :
    DefaultRead value (depthFromEnvOrDefault value) := by
  constructor
  · intro hmissing
    rw [depthFromEnvOrDefault, hmissing]
  · intro hpresent
    unfold depthFromEnvOrDefault
    split
    · exact absurd ‹_› hpresent
    · rfl

/-- How a depth is read from a text, which is by nothing but what the blanks at its ends leave of
it, from the environment, and from there with a default. A numeral between blanks is read as its
number if 64 bits hold it. -/
theorem parseDepth_exact :
    (∀ text, ∃ t, (∀ u, Stripped text u ↔ u = t) ∧ DepthRead t (parseDepth text)) ∧
    (∀ value, EnvRead value (depthFromEnv value)) ∧
    (∀ value, DefaultRead value (depthFromEnvOrDefault value)) ∧
    ∀ n < UInt64.size, ∀ left zeros right, Blank left → Blank right →
      parseDepth (left ++ numeral 10 zeros n ++ right) = .ok n := by
  refine ⟨fun text => ?_, envRead_depthFromEnv, defaultRead_depthFromEnvOrDefault, ?_⟩
  · exact ⟨_, fun u => Text.stripped_iff, depthRead_readDepthNumber (Text.trim text)⟩
  · intro n hn left zeros right hleft hright
    exact parseDepth_numeral zeros hn hleft hright

namespace Limits

/-- The largest number, with padding of each kind. -/
def largest : List Char :=
  ['\n', '\u3000'] ++ numeral 10 3 (UInt64.size - 1) ++ ['\t']

/-- A number one too large, which is noticed before the character that is no digit. -/
def excess : List Char :=
  " +18446744073709551616 levels".toList

theorem parseDepth_limits :
    parseDepth largest = .ok (UInt64.size - 1) ∧
      parseDepth excess = .error .tooLarge ∧
      depthFromEnv (some (utf8 excess)) = .error (.invalid .tooLarge) ∧
      depthFromEnvOrDefault (some (utf8 ['\u3000'])) = .error .blank ∧
      depthFromEnvOrDefault none = .ok 1024 := by
  obtain ⟨hparse, henv, hdefault, hnumeral⟩ := parseDepth_exact
  obtain ⟨t, hstripped, hread⟩ := hparse excess
  have hlarge : parseDepth excess = .error .tooLarge := by
    rw [Text.stripped_iff.mp ((hstripped t).mpr rfl)] at hread
    exact hread.tooLarge.mpr ⟨"18446744073709551616".toList, by decide, by decide, by decide⟩
  have hexcess := (henv _).text excess rfl (by decide +kernel)
  rw [hlarge] at hexcess
  have hblank := (henv _).blank.mpr ⟨['\u3000'], rfl, by decide⟩
  have hmissing := (henv none).missing.mpr nofun
  refine ⟨hnumeral _ (by decide) _ 3 _ (by decide) (by decide), hlarge, hexcess, ?_,
    (hdefault none).missing hmissing⟩
  rw [(hdefault _).present (by rw [hblank]; exact nofun), hblank]

end Limits

end Config

end PrecompileHost
