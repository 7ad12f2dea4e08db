import PrecompileHost.Proofs.Failure
import PrecompileHost.Proofs.Mint.Effects

/-!
Why a call of the mint precompile fails. Its checks come in an order of their own: the caller, the
gas, the input, the protection of the state, and last the balance.
-/

namespace PrecompileHost.Native.Mint

/-- Why a balance is not changed. -/
inductive Refused (as : Accounts) : NativeTokenCall → Refusal → Prop
  | overflow {recipient : Address} {amount : Word}
      (hcredit : (as.create recipient).credit? recipient amount = none) :
      Refused as (.mint recipient amount) .balanceOverflow
  | insufficient {holder : Address} {amount : Word}
      (hdebit : (as.create holder).debit? holder amount = none) :
      Refused as (.burn holder amount) .insufficientBalance

/-- Why a call fails. -/
inductive Rejected (admin caller : Address) (readOnly : Bool) (gas : Gas) (as : Accounts)
    (input : Bytes) : CallError → Prop
  | unauthorized (hcaller : caller ≠ admin) :
      Rejected admin caller readOnly gas as input Refusal.unauthorized.error
  | underpaid (hcaller : caller = admin) (hgas : Gas.sub? gas gasCost = none) :
      Rejected admin caller readOnly gas as input .outOfGas
  | undecodable {left : Gas} {fault : Calldata.DecodeError} (hcaller : caller = admin)
      (hgas : Gas.sub? gas gasCost = some left)
      (hdecode : NativeTokenCall.decode input = .error fault) :
      Rejected admin caller readOnly gas as input (.other fault.message)
  | unwritable {left : Gas} {call : NativeTokenCall} (hcaller : caller = admin)
      (hgas : Gas.sub? gas gasCost = some left)
      (hdecode : NativeTokenCall.decode input = .ok call) (hreadOnly : readOnly = true) :
      Rejected admin caller readOnly gas as input .writeProtection
  | refused {left : Gas} {call : NativeTokenCall} {r : Refusal} (hcaller : caller = admin)
      (hgas : Gas.sub? gas gasCost = some left)
      (hdecode : NativeTokenCall.decode input = .ok call) (hwritable : readOnly = false)
      (hrefused : Refused as call r) :
      Rejected admin caller readOnly gas as input r.error

theorem Refused.error_ne_unauthorized {as : Accounts} {call : NativeTokenCall} {r : Refusal}
    (h : Refused as call r) : r.error ≠ Refusal.unauthorized.error := by
  intro herror
  obtain rfl := Refusal.error_eq_unauthorized_iff.mp herror
  cases h

theorem Rejected.isRevert {admin caller : Address} {readOnly : Bool} {gas : Gas} {as : Accounts}
    {input : Bytes} {e : CallError} (h : Rejected admin caller readOnly gas as input e) :
    e.isRevert = false := by
  cases h <;> rfl

/-- The input decodes to no call, and `e` says so. -/
def Undecodable (input : Bytes) (e : CallError) : Prop :=
  ∃ fault, NativeTokenCall.decode input = .error fault ∧ e = .other fault.message

section

variable {admin caller : Address} {gas : Gas} {as : Accounts} {input : Bytes} {e : CallError}

theorem Rejected.of_early (h : Rejected admin caller false gas as input e)
    (hearly : Undecodable input e ∨ e = .outOfGas ∨ e = Refusal.unauthorized.error)
    (readOnly : Bool) : Rejected admin caller readOnly gas as input e := by
  cases h with
  | unauthorized hcaller => exact .unauthorized hcaller
  | underpaid hcaller hgas => exact .underpaid hcaller hgas
  | undecodable hcaller hgas hdecode => exact .undecodable hcaller hgas hdecode
  | unwritable _ _ _ hro => cases hro
  | refused _ _ hdecode _ hrefused =>
    rcases hearly with ⟨fault, hfault, -⟩ | hgas | hauthority
    · rw [hdecode] at hfault
      cases hfault
    · cases hgas
    · exact absurd hauthority hrefused.error_ne_unauthorized

theorem rejected_of_late
    (hnot : ∀ e, Undecodable input e ∨ e = .outOfGas ∨ e = Refusal.unauthorized.error →
      ¬ Rejected admin caller false gas as input e) :
    Rejected admin caller true gas as input .writeProtection := by
  by_cases hcaller : caller = admin
  · cases hgas : Gas.sub? gas gasCost with
    | none => exact absurd (.underpaid hcaller hgas) (hnot _ (.inr (.inl rfl)))
    | some left =>
      cases hdecode : NativeTokenCall.decode input with
      | error fault =>
        exact absurd (.undecodable hcaller hgas hdecode) (hnot _ (.inl ⟨fault, hdecode, rfl⟩))
      | ok call => exact .unwritable hcaller hgas hdecode rfl
  · exact absurd (.unauthorized hcaller) (hnot _ (.inr (.inr rfl)))

end

open Program

variable {h : Host} {frame : Frame} {gas : Gas} {w : World} {admin : Address} {e : CallError}

theorem fails_execute {call : NativeTokenCall} :
    (execute call).Fails h frame gas w e ↔
      h.context.readOnly = true ∧ e = .writeProtection ∨
        h.context.readOnly = false ∧ ∃ r, Refused w.state.accounts call r ∧ e = r.error := by
  cases hro : h.context.readOnly with
  | true =>
    cases call with
    | mint | burn =>
      simp [execute, fails_bind, hro]
  | false =>
    cases call with
    | mint recipient amount =>
      simp only [execute, fails_bind, fails_createAccount, yields_createAccount, fails_credit,
        yields_credit, fails_require, fails_log, hro, World.accounts_holding, and_assoc,
        exists_and_left, exists_eq_left, exists_const, true_and, Bool.false_eq_true, false_and,
        and_false, false_or, or_false, exists_false]
      constructor
      · rintro ⟨hcredit, rfl⟩
        rw [Option.isSome_eq_false_iff, Option.isNone_iff_eq_none] at hcredit
        exact ⟨_, .overflow hcredit, rfl⟩
      · rintro ⟨r, hrefused, rfl⟩
        cases hrefused with
        | overflow hcredit => exact ⟨by rw [hcredit]; rfl, rfl⟩
    | burn holder amount =>
      simp only [execute, fails_bind, fails_createAccount, yields_createAccount, fails_debit,
        yields_debit, fails_require, fails_log, hro, World.accounts_holding, and_assoc,
        exists_and_left, exists_eq_left, exists_const, true_and, Bool.false_eq_true, false_and,
        and_false, false_or, or_false, exists_false]
      constructor
      · rintro ⟨hdebit, rfl⟩
        rw [Option.isSome_eq_false_iff, Option.isNone_iff_eq_none] at hdebit
        exact ⟨_, .insufficient hdebit, rfl⟩
      · rintro ⟨r, hrefused, rfl⟩
        cases hrefused with
        | insufficient hdebit => exact ⟨by rw [hdebit]; rfl, rfl⟩

/-- The routine fails exactly as its checks say. -/
theorem fails_routine {input : Bytes} :
    (routine admin input).Fails h frame gas w e ↔
      Rejected admin frame.contract.caller h.context.readOnly gas w.state.accounts input e := by
  simp only [routine, fails_bind, fails_observe, yields_observe, fails_require, yields_require,
    fails_charge, yields_charge, decide_eq_false_iff_not, decide_eq_true_eq, false_or, and_assoc,
    exists_and_left, exists_eq_left, exists_const]
  cases hdecode : NativeTokenCall.decode input with
  | error fault =>
    simp only [fails_fail]
    constructor
    · rintro (⟨hcaller, rfl⟩ | ⟨hcaller, ⟨hgas, rfl⟩ | ⟨left, hgas, rfl⟩⟩)
      · exact .unauthorized hcaller
      · exact .underpaid hcaller hgas
      · exact .undecodable hcaller hgas hdecode
    · intro hrejected
      cases hrejected with
      | unauthorized hcaller => exact .inl ⟨hcaller, rfl⟩
      | underpaid hcaller hgas => exact .inr ⟨hcaller, .inl ⟨hgas, rfl⟩⟩
      | undecodable hcaller hgas hfault =>
        cases hdecode.symm.trans hfault
        exact .inr ⟨hcaller, .inr ⟨_, hgas, rfl⟩⟩
      | unwritable _ _ hcall | refused _ _ hcall => simp [hdecode] at hcall
  | ok call =>
    simp only [fails_bind, fails_execute, Program.pure_eq, fails_pure, and_false, exists_false,
      or_false]
    constructor
    · rintro (⟨hcaller, rfl⟩ | ⟨hcaller, ⟨hgas, rfl⟩ | ⟨left, hgas, ⟨hro, rfl⟩ |
        ⟨hro, r, hrefused, rfl⟩⟩⟩)
      · exact .unauthorized hcaller
      · exact .underpaid hcaller hgas
      · exact .unwritable hcaller hgas hdecode hro
      · exact .refused hcaller hgas hdecode hro hrefused
    · intro hrejected
      cases hrejected with
      | unauthorized hcaller => exact .inl ⟨hcaller, rfl⟩
      | underpaid hcaller hgas => exact .inr ⟨hcaller, .inl ⟨hgas, rfl⟩⟩
      | undecodable _ _ hfault => simp [hdecode] at hfault
      | unwritable hcaller hgas _ hro => exact .inr ⟨hcaller, .inr ⟨_, hgas, .inl ⟨hro, rfl⟩⟩⟩
      | refused hcaller hgas hcall hro hrefused =>
        cases hdecode.symm.trans hcall
        exact .inr ⟨hcaller, .inr ⟨_, hgas, .inr ⟨hro, _, hrefused, rfl⟩⟩⟩

end PrecompileHost.Native.Mint
