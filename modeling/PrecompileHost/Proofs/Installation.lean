import PrecompileHost.Native.Install
import PrecompileHost.Proofs.Discipline

/-!
Engines with the shipped precompiles. An installation puts its own precompiles into a registry and
leaves the rest of it as it was; whatever of it is active, a routine is then the mint precompile's,
the token duality precompile's, or one that was registered before.
-/

namespace PrecompileHost

namespace Native.Config

/-- What an installation registers at an address, the last registration first. -/
def shipped? (c : Config) (a : Address) : Option Precompile :=
  (if a = TokenDuality.address then c.tokenDuality.map TokenDuality.precompile else none).or <|
    (if a = Mint.address then c.mintAdmin.map Mint.precompile else none).or <|
      if a = Identity.address then some Identity.precompile else none

/-- An installation takes precedence over what was registered. -/
theorem get?_install (c : Config) (r : Registry) (a : Address) :
    (c.install r).get? a = (c.shipped? a).or (r.get? a) := by
  obtain ⟨mintAdmin, tokenDuality⟩ := c
  cases mintAdmin with
  | none =>
    cases tokenDuality with
    | none => simp [install, shipped?, WordMap.get?_insert_or]
    | some duality => simp [install, shipped?, WordMap.get?_insert_or, Option.or_assoc]
  | some admin =>
    cases tokenDuality with
    | none => simp [install, shipped?, WordMap.get?_insert_or, Option.or_assoc]
    | some duality => simp [install, shipped?, WordMap.get?_insert_or, Option.or_assoc]

/-- What an installation makes of a registry: identity is bound in any case, the others where they
have an admin, with their own parameters, and every other address keeps what it had. -/
structure Installed (c : Config) (before after : Registry) : Prop where
  identity : after.get? Identity.address = some Identity.precompile
  mint (admin : Address) : c.mintAdmin = some admin →
    after.get? Mint.address = some (Mint.precompile admin)
  tokenDuality (duality : TokenDuality.Config) : c.tokenDuality = some duality →
    after.get? TokenDuality.address = some (TokenDuality.precompile duality)
  others (a : Address) : a ≠ Identity.address → (a = Mint.address → c.mintAdmin = none) →
    (a = TokenDuality.address → c.tokenDuality = none) → after.get? a = before.get? a

theorem installed_install (c : Config) (r : Registry) : c.Installed r (c.install r) where
  identity := by
    rw [get?_install]
    simp [shipped?, Identity.address, Mint.address, TokenDuality.address]
  mint admin hadmin := by
    rw [get?_install]
    simp [shipped?, hadmin, Mint.address, TokenDuality.address]
  tokenDuality duality hduality := by
    rw [get?_install]
    simp [shipped?, hduality]
  others a hidentity hmint hduality := by
    have hnone : c.shipped? a = none := by
      by_cases ha : a = Mint.address
      · simp [shipped?, ha, hmint ha, Mint.address, Identity.address, TokenDuality.address]
      · by_cases hb : a = TokenDuality.address
        · simp [shipped?, hb, hduality hb, Mint.address, Identity.address, TokenDuality.address]
        · simp [shipped?, ha, hb, hidentity]
    rw [get?_install, hnone, Option.none_or]

/-- Where a routine comes from that is active at an address: from the installation, or from
elsewhere, and then it keeps to `P`. -/
inductive Provides (c : Config) (P : Operation → Prop) (a : Address)
    (routine : Bytes → Program Bytes) : Prop
  | mint {admin : Address} (haddress : a = Mint.address) (hadmin : c.mintAdmin = some admin)
      (hroutine : routine = Mint.routine admin)
  | tokenDuality {duality : TokenDuality.Config} (haddress : a = TokenDuality.address)
      (hduality : c.tokenDuality = some duality) (hroutine : routine = TokenDuality.routine duality)
  | other (hmint : ∀ admin, c.mintAdmin = some admin → a ≠ Mint.address)
      (hduality : ∀ duality, c.tokenDuality = some duality → a ≠ TokenDuality.address)
      (text : ∀ input, (routine input).Only P)

/-- What is active is part of an installation into `others`. -/
def Governs (c : Config) (others active : Registry) : Prop :=
  ∀ a p, active.get? a = some p → (c.install others).get? a = some p

/-- So it is in an engine that an installation was made for, whatever its rules and hooks. -/
theorem governs_activate (c : Config) (others : Registry) (rules : Rules) (hooks : Hooks) :
    c.Governs others ((c.install others).activate rules hooks) :=
  fun _ _ hp => (Registry.get?_select_eq_some_iff.mp hp).1

theorem Governs.provides {c : Config} {others active : Registry} (h : c.Governs others active)
    {P : Operation → Prop} (hothers : others.Only fun _ o => P o) {a : Address}
    {routine : Bytes → Program Bytes} (hactive : active.get? a = some (.stateful routine)) :
    c.Provides P a routine := by
  have hinstalled := h a _ hactive
  rw [get?_install, shipped?, Option.or_assoc, Option.or_assoc] at hinstalled
  rcases Option.or_eq_some_iff.mp hinstalled with hat | ⟨hnotDuality, hinstalled⟩
  · obtain ⟨haddress, hsome⟩ := Option.ite_none_right_eq_some.mp hat
    obtain ⟨duality, hduality, hp⟩ := Option.map_eq_some_iff.mp hsome
    cases hp
    exact .tokenDuality haddress hduality rfl
  rcases Option.or_eq_some_iff.mp hinstalled with hat | ⟨hnotMint, hinstalled⟩
  · obtain ⟨haddress, hsome⟩ := Option.ite_none_right_eq_some.mp hat
    obtain ⟨admin, hadmin, hp⟩ := Option.map_eq_some_iff.mp hsome
    cases hp
    exact .mint haddress hadmin rfl
  rcases Option.or_eq_some_iff.mp hinstalled with hidentity | ⟨-, hother⟩
  · -- what is installed there is stateless
    cases (Option.ite_none_right_eq_some.mp hidentity).2
  refine .other (fun admin hadmin ha => ?_) (fun duality hduality ha => ?_)
    (hothers a routine hother)
  · simp [ha, hadmin] at hnotMint
  · simp [ha, hduality] at hnotDuality

end Native.Config

end PrecompileHost
