import PrecompileHost.Config.Precompiles
import PrecompileHost.Proofs.Installation
import PrecompileHost.Text.Lemmas

/-!
What configuration is loaded from which texts. All faults that a configuration can have are listed
in the order in which they are looked for; loading reports the first of them, and if there are none
it gives the values that the texts denote.
-/

namespace PrecompileHost

namespace Config

open Text (Blank Bare trim)

/-- `Trimmed text t`: the part `t` of an optional text that counts, which is what stands between
blanks. -/
inductive Trimmed : Option (List Char) → Option (List Char) → Prop
  | unset : Trimmed none none
  | blank {text : List Char} (h : Blank text) : Trimmed (some text) none
  | set {left text right : List Char} (hleft : Blank left) (hright : Blank right)
      (htext : Bare text) (hne : text ≠ []) : Trimmed (some (left ++ text ++ right)) (some text)

theorem trimmed_present? (text : Option (List Char)) : Trimmed text (present? text) := by
  cases text with
  | none => exact .unset
  | some text =>
    by_cases h : trim text = []
    · have hnone : present? (some text) = none := by simp [present?, h]
      rw [hnone]
      exact .blank (Text.trim_eq_nil_iff.mp h)
    · have hsome : present? (some text) = some (trim text) := by simp [present?, h]
      obtain ⟨left, right, hleft, hright, htext⟩ := Text.exists_append_trim text
      have hset := Trimmed.set hleft hright (Text.bare_trim text) h
      rwa [htext, ← hsome] at hset

theorem Trimmed.present?_eq {text t : Option (List Char)} (h : Trimmed text t) :
    present? text = t := by
  cases h with
  | unset => rfl
  | blank h => simp [present?, Text.trim_of_blank h]
  | set hleft hright htext hne =>
    rw [present?, Option.map_some, Text.trim_append hleft htext hright]
    simp [hne]

/-- The four texts that make up a configuration. -/
structure Texts where
  mintAdmin : Option (List Char)
  dualityAdmin : Option (List Char)
  perCallCap : Option (List Char)
  perBlockCap : Option (List Char)

/-- Each text is what counts of its own variable. -/
structure Texts.Of (t : Texts) (lookup : String → Option (List Char)) : Prop where
  mintAdmin : Trimmed (lookup mintAdminVariable) t.mintAdmin
  dualityAdmin : Trimmed (lookup dualityAdminVariable) t.dualityAdmin
  perCallCap : Trimmed (lookup perCallCapVariable) t.perCallCap
  perBlockCap : Trimmed (lookup perBlockCapVariable) t.perBlockCap

/-! ### Reading -/

section Reading

variable {ε α : Type} (parse : List Char → Except ε α)

/-- A text can be read unless it is set and does not parse. -/
def Readable (text : Option (List Char)) : Prop :=
  ∀ t, text = some t → ∃ a, parse t = .ok a

/-- What a text denotes, if it is set and parses. -/
def value? (text : Option (List Char)) : Option α :=
  text.bind fun t => (parse t).toOption

/-- The fault of a text that does not parse. -/
def misreading? (wrap : ε → PrecompilesError) : Option (List Char) → Option PrecompilesError
  | none => none
  | some t =>
    match parse t with
    | .ok _ => none
    | .error e => some (wrap e)

variable {parse} {wrap : ε → PrecompilesError} {text : Option (List Char)}

theorem misreading?_eq_none_iff : misreading? parse wrap text = none ↔ Readable parse text := by
  cases text with
  | none => simp [misreading?, Readable]
  | some t => cases h : parse t <;> simp [misreading?, Readable, h]

theorem Readable.value?_eq_none_iff (h : Readable parse text) :
    value? parse text = none ↔ text = none := by
  cases text with
  | none => simp [value?]
  | some t =>
    obtain ⟨a, ha⟩ := h t rfl
    simp [value?, ha, Except.toOption]

end Reading

/-! ### Reports -/

section Report

variable {ε α β : Type}

/-- The first of some faults, or a value where there are none. -/
def report (faults : List ε) (a : α) : Except ε α :=
  match faults with
  | [] => .ok a
  | e :: _ => .error e

theorem report_eq_ok_iff {faults : List ε} {a b : α} :
    report faults a = .ok b ↔ faults = [] ∧ a = b := by
  cases faults <;> simp [report]

theorem report_eq_error_iff {faults : List ε} {a : α} {e : ε} :
    report faults a = .error e ↔ faults.head? = some e := by
  cases faults <;> simp [report]

/-- What follows is only looked at where there are no faults yet. -/
theorem report_bind {faults later : List ε} {a : α} {b : β} {f : α → Except ε β}
    (h : faults = [] → f a = report later b) :
    (report faults a >>= f) = report (faults ++ later) b := by
  cases faults with
  | nil => exact h rfl
  | cons e rest => rfl

theorem report_map {faults : List ε} {a : α} (f : α → β) :
    f <$> report faults a = report faults (f a) := by
  cases faults <;> rfl

end Report

theorem reading_eq {ε α : Type} (parse : List Char → Except ε α) (wrap : ε → PrecompilesError)
    (t : List Char) :
    ((parse t).mapError wrap).map some =
      report (misreading? parse wrap (some t)).toList (value? parse (some t)) := by
  cases h : parse t <;> simp [misreading?, value?, h] <;> rfl

theorem readAddress?_eq (text : Option (List Char)) :
    readAddress? text =
      report (misreading? Address.ofText .address text).toList (value? Address.ofText text) := by
  cases text with
  | none => rfl
  | some t => exact reading_eq Address.ofText .address t

theorem readAmount?_eq (text : Option (List Char)) :
    readAmount? text =
      report (misreading? Word.ofText .amount text).toList (value? Word.ofText text) := by
  cases text with
  | none => rfl
  | some t => exact reading_eq Word.ofText .amount t

/-! ### Faults -/

def zeroAdmin? (admin : Option Address) : Option PrecompilesError :=
  if admin = some 0 then some (.duality .zeroAdmin) else none

/-- Caps are only compared where there is an admin. -/
def capOrder? (admin : Option Address) (perCallCap perBlockCap : Option Word) :
    Option PrecompilesError :=
  match admin, perCallCap, perBlockCap with
  | some _, some callCap, some blockCap =>
    if callCap ≤ blockCap then none else some (.duality (.capOrder callCap blockCap))
  | _, _, _ => none

def unownedCaps? {α β : Type} (admin : Option α) (perCallCap perBlockCap : Option β) :
    Option PrecompilesError :=
  if admin = none ∧ (perCallCap ≠ none ∨ perBlockCap ≠ none) then some .capsWithoutAdmin else none

theorem zeroAdmin?_eq_none_iff {admin : Option Address} :
    zeroAdmin? admin = none ↔ admin ≠ some 0 := by
  simp [zeroAdmin?]

theorem capOrder?_eq_none_iff {admin : Option Address} {perCallCap perBlockCap : Option Word} :
    capOrder? admin perCallCap perBlockCap = none ↔
      (admin ≠ none → ∀ callCap blockCap, perCallCap = some callCap →
        perBlockCap = some blockCap → callCap ≤ blockCap) := by
  cases admin <;> cases perCallCap <;> cases perBlockCap <;> simp [capOrder?]

theorem unownedCaps?_eq_none_iff {α β : Type} {admin : Option α}
    {perCallCap perBlockCap : Option β} :
    unownedCaps? admin perCallCap perBlockCap = none ↔
      (admin = none → perCallCap = none ∧ perBlockCap = none) := by
  cases admin <;> cases perCallCap <;> cases perBlockCap <;> simp [unownedCaps?]

theorem unownedCaps?_congr {α α' β β' : Type} {admin : Option α} {admin' : Option α'}
    {perCallCap perBlockCap : Option β} {perCallCap' perBlockCap' : Option β'}
    (hadmin : admin = none ↔ admin' = none) (hcall : perCallCap = none ↔ perCallCap' = none)
    (hblock : perBlockCap = none ↔ perBlockCap' = none) :
    unownedCaps? admin perCallCap perBlockCap = unownedCaps? admin' perCallCap' perBlockCap' := by
  simp only [unownedCaps?, ne_eq, hadmin, hcall, hblock]

theorem checked_eq (admin : Address) (perCallCap perBlockCap : Option Word) :
    (Native.TokenDuality.Config.checked admin perCallCap perBlockCap).mapError .duality =
      report
        ([zeroAdmin? (some admin),
          capOrder? (some admin) perCallCap perBlockCap].flatMap Option.toList)
        { admin, perCallCap, perBlockCap } := by
  unfold Native.TokenDuality.Config.checked zeroAdmin?
  by_cases hzero : admin = 0
  · rw [if_pos hzero, if_pos (congrArg some hzero)]
    rfl
  · rw [if_neg hzero, if_neg fun h => hzero (Option.some.inj h)]
    cases perCallCap with
    | none => rfl
    | some callCap =>
      cases perBlockCap with
      | none => rfl
      | some blockCap => by_cases horder : callCap ≤ blockCap <;> simp [capOrder?, horder] <;> rfl

theorem duality?_eq (admin : Option Address) (perCallCap perBlockCap : Option Word) :
    duality? admin perCallCap perBlockCap =
      report
        ([zeroAdmin? admin, capOrder? admin perCallCap perBlockCap,
          unownedCaps? admin perCallCap perBlockCap].flatMap Option.toList)
        (admin.map fun admin => { admin, perCallCap, perBlockCap }) := by
  cases admin with
  | none => cases perCallCap <;> cases perBlockCap <;> rfl
  | some admin =>
    have howned : unownedCaps? (some admin) perCallCap perBlockCap = none := rfl
    show some <$> (Native.TokenDuality.Config.checked _ _ _).mapError _ = _
    rw [checked_eq, report_map, howned]
    rfl

namespace Texts

variable (t : Texts)

/-- The configuration that the texts denote. -/
def config : Native.Config where
  mintAdmin := value? Address.ofText t.mintAdmin
  tokenDuality := (value? Address.ofText t.dualityAdmin).map fun admin =>
    { admin
      perCallCap := value? Word.ofText t.perCallCap
      perBlockCap := value? Word.ofText t.perBlockCap }

/-- All faults, in the order in which they are looked for. -/
def faults : List PrecompilesError :=
  [misreading? Address.ofText .address t.mintAdmin,
    misreading? Address.ofText .address t.dualityAdmin,
    misreading? Word.ofText .amount t.perCallCap,
    misreading? Word.ofText .amount t.perBlockCap,
    zeroAdmin? (value? Address.ofText t.dualityAdmin),
    capOrder? (value? Address.ofText t.dualityAdmin) (value? Word.ofText t.perCallCap)
      (value? Word.ofText t.perBlockCap),
    unownedCaps? t.dualityAdmin t.perCallCap t.perBlockCap].flatMap Option.toList

/-- The texts can be read, and what they denote fits together. -/
structure Sound : Prop where
  mintAdmin : Readable Address.ofText t.mintAdmin
  dualityAdmin : Readable Address.ofText t.dualityAdmin
  perCallCap : Readable Word.ofText t.perCallCap
  perBlockCap : Readable Word.ofText t.perBlockCap
  admin_ne_zero : value? Address.ofText t.dualityAdmin ≠ some 0
  caps_ordered : t.dualityAdmin ≠ none → ∀ callCap blockCap,
    value? Word.ofText t.perCallCap = some callCap →
    value? Word.ofText t.perBlockCap = some blockCap → callCap ≤ blockCap
  caps_owned : t.dualityAdmin = none → t.perCallCap = none ∧ t.perBlockCap = none

theorem faults_eq_nil_iff : t.faults = [] ↔ t.Sound := by
  simp only [faults, List.flatMap_cons, List.flatMap_nil, List.append_eq_nil_iff,
    Option.toList_eq_nil_iff, misreading?_eq_none_iff, zeroAdmin?_eq_none_iff,
    capOrder?_eq_none_iff, unownedCaps?_eq_none_iff]
  constructor
  · rintro ⟨hmint, hadmin, hcall, hblock, hzero, horder, howned, -⟩
    refine ⟨hmint, hadmin, hcall, hblock, hzero, fun hset => horder ?_, howned⟩
    exact mt hadmin.value?_eq_none_iff.mp hset
  · intro h
    refine ⟨h.mintAdmin, h.dualityAdmin, h.perCallCap, h.perBlockCap, h.admin_ne_zero, ?_,
      h.caps_owned, trivial⟩
    intro hset
    apply h.caps_ordered
    exact mt h.dualityAdmin.value?_eq_none_iff.mpr hset

variable {t}

/-- Loading makes the checks in the order of the faults. -/
theorem Of.precompilesFrom_eq {lookup : String → Option (List Char)} (h : t.Of lookup) :
    precompilesFrom lookup = report t.faults t.config := by
  unfold precompilesFrom
  rw [h.mintAdmin.present?_eq, h.dualityAdmin.present?_eq, h.perCallCap.present?_eq,
    h.perBlockCap.present?_eq, readAddress?_eq, readAddress?_eq, readAmount?_eq, readAmount?_eq]
  simp only [faults, List.flatMap_cons]
  refine report_bind fun _ => report_bind fun hadmin => report_bind fun hcall =>
    report_bind fun hblock => ?_
  simp only [Option.toList_eq_nil_iff, misreading?_eq_none_iff] at hadmin hcall hblock
  have howned := unownedCaps?_congr hadmin.value?_eq_none_iff hcall.value?_eq_none_iff
    hblock.value?_eq_none_iff
  rw [duality?_eq, howned]
  simp [report_map, config]

/-- What loading the texts comes to: a configuration if they are sound, and else the first of their
faults. Installed into whatever was registered, the configuration is that of the values the texts
denote. -/
structure Loads (t : Texts) (result : Except PrecompilesError Native.Config) : Prop where
  succeeds : (∃ c, result = .ok c) ↔ t.Sound
  fails (e : PrecompilesError) : result = .error e ↔ t.faults.head? = some e
  config (c : Native.Config) : result = .ok c → c = t.config
  installed (c : Native.Config) : result = .ok c → ∀ r, t.config.Installed r (c.install r)

theorem Of.loads {lookup : String → Option (List Char)} (h : t.Of lookup) :
    t.Loads (precompilesFrom lookup) where
  succeeds := by
    simp [h.precompilesFrom_eq, report_eq_ok_iff, faults_eq_nil_iff]
  fails e := by
    rw [h.precompilesFrom_eq]
    exact report_eq_error_iff
  config c hc := by
    rw [h.precompilesFrom_eq] at hc
    exact (report_eq_ok_iff.mp hc).2.symm
  installed c hc r := by
    rw [h.precompilesFrom_eq] at hc
    rw [← (report_eq_ok_iff.mp hc).2]
    exact t.config.installed_install r

theorem Of.exists_error {lookup : String → Option (List Char)} (h : t.Of lookup)
    (hsound : ¬ t.Sound) : ∃ e, precompilesFrom lookup = .error e := by
  cases hresult : precompilesFrom lookup with
  | ok c => exact absurd (h.loads.succeeds.mp ⟨c, hresult⟩) hsound
  | error e => exact ⟨e, rfl⟩

theorem exists_of (lookup : String → Option (List Char)) : ∃ t : Texts, t.Of lookup :=
  ⟨⟨_, _, _, _⟩, trimmed_present? _, trimmed_present? _, trimmed_present? _, trimmed_present? _⟩

end Texts

/-- Loading depends on no more than what counts of the four texts, and gives their configuration or
their first fault. -/
theorem precompilesFrom_exact (lookup : String → Option (List Char)) :
    ∃ t : Texts, t.Of lookup ∧
      (∀ lookup', t.Of lookup' → precompilesFrom lookup' = precompilesFrom lookup) ∧
      t.Loads (precompilesFrom lookup) := by
  obtain ⟨t, hof⟩ := Texts.exists_of lookup
  refine ⟨t, hof, fun lookup' hof' => ?_, hof.loads⟩
  rw [hof'.precompilesFrom_eq, hof.precompilesFrom_eq]

end Config

end PrecompileHost
