import PrecompileHost.Proofs.Configuration
import PrecompileHost.Text.Numeral

/-!
Configurations in writing. A configuration is loaded from any texts that spell its values, and none
is loaded from a cap too large for an amount.
-/

namespace PrecompileHost

open Text (Blank Bare numeral)

/-! ### Spelling -/

/-- An address is spelled by all its digits behind 0x, with letters of either case. -/
def Address.Spelled (a : Address) (text : List Char) : Prop :=
  text.map Char.toLower = a.text.toList

instance (a : Address) (text : List Char) : Decidable (a.Spelled text) :=
  inferInstanceAs (Decidable (text.map Char.toLower = a.text.toList))

/-- An amount is spelled in base 10, with any number of zeros in front, or by up to 64 digits of
base 16 behind 0x, with letters of either case. -/
inductive Word.Spelled (w : Word) : List Char → Prop
  | decimal (zeros : Nat) : Spelled w (numeral 10 zeros w.toNat)
  | hex {text : List Char} {zeros : Nat} (hwidth : (numeral 16 zeros w.toNat).length ≤ 64)
      (h : text.map Char.toLower = '0' :: 'x' :: numeral 16 zeros w.toNat) : Spelled w text

/-- What a reader makes of a text that is set between blanks. -/
structure Text.Read {ε α : Type} (parse : List Char → Except ε α) (text : List Char) (a : α) :
    Prop where
  bare : Bare text
  ne_nil : text ≠ []
  parsed : parse text = .ok a

theorem Address.Spelled.read {a : Address} {text : List Char} (h : a.Spelled text) :
    Text.Read ofText text a := by
  obtain ⟨ds, hds, hlt, -⟩ := a.exists_text
  obtain ⟨hbare, hne⟩ := Text.bare_of_mark hlt (h.trans hds)
  exact ⟨hbare, hne, ofText_text h⟩

theorem Word.Spelled.read {w : Word} {text : List Char} (h : w.Spelled text) :
    Text.Read ofText text w := by
  have hword : w.toNat < size := w.isLt
  cases h with
  | decimal zeros =>
    obtain ⟨hbare, hne⟩ := Text.bare_decimal zeros w.toNat
    refine ⟨hbare, hne, ?_⟩
    rw [ofText_decimal, if_pos hword, BitVec.ofNat_toNat, BitVec.setWidth_eq]
  | @hex text zeros _ h =>
    obtain ⟨ds, hds, hlt, -⟩ := Text.exists_numeral (show 1 < 16 by decide) zeros w.toNat
    obtain ⟨hbare, hne⟩ := Text.bare_of_mark hlt (by rw [h, hds])
    refine ⟨hbare, hne, ?_⟩
    rw [ofText_hex h, if_pos hword, BitVec.ofNat_toNat, BitVec.setWidth_eq]

namespace Config

/-- `Written Spelled a text`: a text that is set spells the value between blanks; an absent value
is left unset. -/
inductive Written {α : Type} (Spelled : α → List Char → Prop) :
    Option α → Option (List Char) → Prop
  | absent : Written Spelled none none
  | present {a : α} {left text right : List Char} (hleft : Blank left) (hright : Blank right)
      (h : Spelled a text) : Written Spelled (some a) (some (left ++ text ++ right))

theorem Written.exists_trimmed {ε α : Type} {parse : List Char → Except ε α}
    {Spelled : α → List Char → Prop} {a : Option α} {text : Option (List Char)}
    (hread : ∀ {a text}, Spelled a text → Text.Read parse text a) (h : Written Spelled a text) :
    ∃ t, Trimmed text t ∧ Readable parse t ∧ value? parse t = a := by
  cases h with
  | absent => exact ⟨none, .unset, nofun, rfl⟩
  | @present a left text right hleft hright h =>
    obtain ⟨hbare, hne, hparsed⟩ := hread h
    refine ⟨some text, .set hleft hright hbare hne, ?_, ?_⟩
    · rintro _ ⟨⟩
      exact ⟨a, hparsed⟩
    · simp [value?, hparsed, Except.toOption]

/-- The texts spell the configuration, each its own value. -/
structure WrittenIn (lookup : String → Option (List Char)) (c : Native.Config) : Prop where
  mintAdmin : Written Address.Spelled c.mintAdmin (lookup mintAdminVariable)
  dualityAdmin : Written Address.Spelled (c.tokenDuality.map (·.admin))
    (lookup dualityAdminVariable)
  perCallCap : Written Word.Spelled (c.tokenDuality.bind (·.perCallCap))
    (lookup perCallCapVariable)
  perBlockCap : Written Word.Spelled (c.tokenDuality.bind (·.perBlockCap))
    (lookup perBlockCapVariable)

/-- The admin is not the zero address, and a call's cap is no larger than a block's. -/
structure Consistent (d : Native.TokenDuality.Config) : Prop where
  admin_ne_zero : d.admin ≠ 0
  caps_ordered (callCap blockCap : Word) : d.perCallCap = some callCap →
    d.perBlockCap = some blockCap → callCap ≤ blockCap

theorem WrittenIn.exists_texts {lookup : String → Option (List Char)} {c : Native.Config}
    (h : WrittenIn lookup c) (hc : ∀ d ∈ c.tokenDuality, Consistent d) :
    ∃ t : Texts, t.Of lookup ∧ t.Sound ∧ t.config = c := by
  obtain ⟨mintAdmin, hmintOf, hmint, hmintValue⟩ := h.mintAdmin.exists_trimmed Address.Spelled.read
  obtain ⟨admin, hadminOf, hadmin, hadminValue⟩ :=
    h.dualityAdmin.exists_trimmed Address.Spelled.read
  obtain ⟨perCallCap, hcallOf, hcall, hcallValue⟩ := h.perCallCap.exists_trimmed Word.Spelled.read
  obtain ⟨perBlockCap, hblockOf, hblock, hblockValue⟩ :=
    h.perBlockCap.exists_trimmed Word.Spelled.read
  refine ⟨⟨mintAdmin, admin, perCallCap, perBlockCap⟩, ⟨hmintOf, hadminOf, hcallOf, hblockOf⟩, ?_⟩
  obtain ⟨mint, duality⟩ := c
  cases duality with
  | none =>
    have hadminUnset := hadmin.value?_eq_none_iff.mp hadminValue
    have hcallUnset := hcall.value?_eq_none_iff.mp hcallValue
    have hblockUnset := hblock.value?_eq_none_iff.mp hblockValue
    refine ⟨⟨hmint, hadmin, hcall, hblock, ?_, ?_, fun _ => ⟨hcallUnset, hblockUnset⟩⟩, ?_⟩
    · simp [hadminValue]
    · simp [hadminUnset]
    · simp [Texts.config, hmintValue, hadminValue]
  | some d =>
    have hadminSet : admin ≠ none := by
      intro hunset
      simp [hunset, value?] at hadminValue
    refine ⟨⟨hmint, hadmin, hcall, hblock, ?_, ?_, fun hunset => absurd hunset hadminSet⟩, ?_⟩
    · rw [hadminValue]
      simpa using (hc d rfl).admin_ne_zero
    · intro _ callCap blockCap hcallCap hblockCap
      exact (hc d rfl).caps_ordered callCap blockCap (hcallValue.symm.trans hcallCap)
        (hblockValue.symm.trans hblockCap)
    · simp [Texts.config, hmintValue, hadminValue, hcallValue, hblockValue]

/-- A cap that is no amount is a fault whatever the other texts are. -/
theorem exists_error_of_large {lookup : String → Option (List Char)} {name : String}
    (hname : name = perCallCapVariable ∨ name = perBlockCapVariable) {left right : List Char}
    {zeros n : Nat} (hleft : Blank left) (hright : Blank right) (hlarge : Word.size ≤ n)
    (htext : lookup name = some (left ++ numeral 10 zeros n ++ right)) :
    ∃ e, precompilesFrom lookup = .error e := by
  obtain ⟨hbare, hne⟩ := Text.bare_decimal zeros n
  have htrimmed : Trimmed (lookup name) (some (numeral 10 zeros n)) := by
    rw [htext]
    exact .set hleft hright hbare hne
  have hunreadable : ¬ Readable Word.ofText (some (numeral 10 zeros n)) := by
    intro hread
    obtain ⟨w, hw⟩ := hread _ rfl
    rw [Word.ofText_decimal, if_neg (Nat.not_lt.mpr hlarge)] at hw
    cases hw
  obtain ⟨t, hof⟩ := Texts.exists_of lookup
  refine hof.exists_error fun hsound => hunreadable ?_
  rcases hname with rfl | rfl
  · rw [← htrimmed.present?_eq, hof.perCallCap.present?_eq]
    exact hsound.perCallCap
  · rw [← htrimmed.present?_eq, hof.perBlockCap.present?_eq]
    exact hsound.perBlockCap

/-- A consistent configuration in writing is loaded as it is, and not at all once one of its caps
is replaced by a number that is no word. -/
theorem precompilesFrom_written (c : Native.Config) (hc : ∀ d ∈ c.tokenDuality, Consistent d)
    (lookup : String → Option (List Char)) (hwritten : WrittenIn lookup c) :
    precompilesFrom lookup = .ok c ∧
      ∀ name ∈ [perCallCapVariable, perBlockCapVariable], ∀ left zeros n right,
        Blank left → Blank right → Word.size ≤ n →
          ∃ e, precompilesFrom
            (Function.update lookup name (some (left ++ numeral 10 zeros n ++ right))) =
              .error e := by
  constructor
  · obtain ⟨t, hof, hsound, hconfig⟩ := hwritten.exists_texts hc
    rw [hof.precompilesFrom_eq, t.faults_eq_nil_iff.mpr hsound, hconfig]
    rfl
  · intro name hname left zeros n right hleft hright hlarge
    exact exists_error_of_large (by simpa using hname) hleft hright hlarge
      (Function.update_self name _ lookup)

namespace Deployment

def config : Native.Config where
  mintAdmin := some 0xa1
  tokenDuality := some { admin := 0xbeef, perCallCap := some 100, perBlockCap := some 1000 }

def lookup (name : String) : Option (List Char) :=
  if name = mintAdminVariable then
    some ([] ++ "0x00000000000000000000000000000000000000A1".toList ++ [])
  else if name = dualityAdminVariable then
    some ([' '] ++ "0x000000000000000000000000000000000000bEEf".toList ++ ['\n'])
  else if name = perCallCapVariable then some (['\t'] ++ numeral 10 2 100 ++ [])
  else if name = perBlockCapVariable then some ([] ++ "0x03E8".toList ++ [' '])
  else none

theorem consistent_config : ∀ d ∈ config.tokenDuality, Consistent d := by
  rintro d ⟨⟩
  refine ⟨by decide, ?_⟩
  rintro callCap blockCap ⟨⟩ ⟨⟩
  decide

theorem written_config : WrittenIn lookup config where
  mintAdmin := .present (by decide) (by decide) (by decide +kernel)
  dualityAdmin := .present (by decide) (by decide) (by decide +kernel)
  perCallCap := .present (by decide) (by decide) (.decimal 2)
  perBlockCap :=
    .present (by decide) (by decide) (@Word.Spelled.hex 1000 _ 1 (by decide) (by decide))

/-- A block's cap of 2 to the 256th is too large. -/
theorem precompilesFrom_lookup :
    precompilesFrom lookup = .ok config ∧
      ∃ e, precompilesFrom (Function.update lookup perBlockCapVariable
        (some ([' '] ++ numeral 10 3 Word.size ++ []))) = .error e := by
  obtain ⟨hloaded, hlarge⟩ := precompilesFrom_written config consistent_config lookup written_config
  exact ⟨hloaded, hlarge _ (by simp) [' '] 3 Word.size [] (by decide) (by decide) (Nat.le_refl _)⟩

end Deployment

end Config

end PrecompileHost
