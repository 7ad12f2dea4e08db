import PrecompileHost.Proofs.Failure
import PrecompileHost.Proofs.TokenDuality.Effects

/-!
Why a call of the token duality precompile fails. The checks are made in a fixed order, and the
error is that of the first one which is not passed: the input, the gas, the caller, the protection
of the state, and last what the transfer itself insists on.
-/

namespace PrecompileHost.Native.TokenDuality

/-- Why a transfer is not tracked. -/
inductive TrackRefused (c : Config) (block amount : Word) (as : Accounts) : Refusal → Prop
  | untrackable {cap : Word} (hcap : c.perBlockCap = some cap)
      (hsum : (recorded as block).add? amount = none) :
      TrackRefused c block amount as .untrackable
  | overCap {cap total : Word} (hcap : c.perBlockCap = some cap)
      (htotal : (recorded as block).add? amount = some total) (hgt : ¬ total ≤ cap) :
      TrackRefused c block amount as (.overPerBlockCap total cap)

/-- A transfer that is neither misdirected nor of no effect. -/
def Moves (source target : Address) (amount : Word) : Prop :=
  target ≠ 0 ∧ amount ≠ 0 ∧ source ≠ target

/-- Why a transfer is not made, the checks of its caller aside. -/
inductive TransferRefused (c : Config) (block : Word) (source target : Address) (amount : Word)
    (as : Accounts) : Refusal → Prop
  | zeroRecipient (htarget : target = 0) :
      TransferRefused c block source target amount as .zeroRecipient
  | overCallCap {cap : Word} (hmoves : Moves source target amount)
      (hcap : c.perCallCap = some cap) (hgt : ¬ amount ≤ cap) :
      TransferRefused c block source target amount as (.overPerCallCap amount cap)
  | untracked {r : Refusal} (hmoves : Moves source target amount)
      (hcap : ∀ cap, c.perCallCap = some cap → amount ≤ cap)
      (hrefused : TrackRefused c block amount as r) :
      TransferRefused c block source target amount as r
  | insufficient {tracked : Accounts} (hmoves : Moves source target amount)
      (hcap : ∀ cap, c.perCallCap = some cap → amount ≤ cap)
      (htracked : Tracked c block amount as tracked)
      (hdebit : ((tracked.create source).create target).debit? source amount = none) :
      TransferRefused c block source target amount as .insufficientBalance
  | overflow {tracked debited : Accounts} (hmoves : Moves source target amount)
      (hcap : ∀ cap, c.perCallCap = some cap → amount ≤ cap)
      (htracked : Tracked c block amount as tracked)
      (hdebit : ((tracked.create source).create target).debit? source amount = some debited)
      (hcredit : debited.credit? target amount = none) :
      TransferRefused c block source target amount as .balanceOverflow

/-- The method only looks. -/
def looks : TokenDualityCall → Bool
  | .allowlist _ | .transferredThisBlock | .perCallCap | .perBlockCap => true
  | .transfer _ _ _ | .addToAllowList _ | .removeFromAllowList _ => false

theorem update?_eq_none_of_looks {call : TokenDualityCall} (h : looks call = true) :
    update? call = none := by
  cases call with
  | transfer | addToAllowList | removeFromAllowList => cases h
  | allowlist | transferredThisBlock | perCallCap | perBlockCap => rfl

theorem price_of_looks {call : TokenDualityCall} (h : looks call = true) :
    price call = viewGas := by
  cases call with
  | transfer | addToAllowList | removeFromAllowList => cases h
  | allowlist | transferredThisBlock | perCallCap | perBlockCap => rfl

/-- A method that only looks answers what there is to see, and changes nothing. -/
theorem Effected.view_of_looks {c : Config} {caller : Address} {block : Word} {readOnly : Bool}
    {as bs : Accounts} {call : TokenDualityCall} {output : Bytes} (hlooks : looks call = true)
    (h : Effected c caller block readOnly as call output bs) :
    view? c block as call = some output ∧ bs = as := by
  cases h with
  | transferred => cases hlooks
  | updated hupdate =>
    rw [update?_eq_none_of_looks hlooks] at hupdate
    cases hupdate
  | viewed hview => exact ⟨hview, rfl⟩

/-- Whom a method is for. -/
def Permitted (c : Config) (as : Accounts) (caller : Address) : TokenDualityCall → Prop
  | .transfer _ _ _ => Authorized c as caller
  | .addToAllowList _ | .removeFromAllowList _ => caller = c.admin
  | .allowlist _ | .transferredThisBlock | .perCallCap | .perBlockCap => True

/-- Why a call fails that its input decodes to. -/
inductive Rejected (c : Config) (caller : Address) (block : Word) (readOnly : Bool) (gas : Gas)
    (as : Accounts) : TokenDualityCall → CallError → Prop
  | underpaid {call : TokenDualityCall} (hgas : Gas.sub? gas (price call) = none) :
      Rejected c caller block readOnly gas as call .outOfGas
  | unauthorized {call : TokenDualityCall} {left : Gas}
      (hgas : Gas.sub? gas (price call) = some left) (hcaller : ¬ Permitted c as caller call) :
      Rejected c caller block readOnly gas as call Refusal.unauthorized.error
  | unwritable {call : TokenDualityCall} {left : Gas}
      (hgas : Gas.sub? gas (price call) = some left) (hcaller : Permitted c as caller call)
      (hwrites : looks call = false) (hreadOnly : readOnly = true) :
      Rejected c caller block readOnly gas as call .writeProtection
  | refused {source target : Address} {amount : Word} {left : Gas} {r : Refusal}
      (hgas : Gas.sub? gas transferGas = some left) (hcaller : Authorized c as caller)
      (hwritable : readOnly = false)
      (hrefused : TransferRefused c block source target amount as r) :
      Rejected c caller block readOnly gas as (.transfer source target amount) r.error

theorem TransferRefused.error_ne_unauthorized {c : Config} {block amount : Word}
    {source target : Address} {as : Accounts} {r : Refusal}
    (h : TransferRefused c block source target amount as r) :
    r.error ≠ Refusal.unauthorized.error := by
  intro herror
  obtain rfl := Refusal.error_eq_unauthorized_iff.mp herror
  cases h with
  | untracked _ _ hrefused => cases hrefused

theorem rejected_unauthorized_iff {c : Config} {caller : Address} {block : Word} {readOnly : Bool}
    {gas : Gas} {as : Accounts} {call : TokenDualityCall} :
    Rejected c caller block readOnly gas as call Refusal.unauthorized.error ↔
      price call ≤ gas ∧ ¬ Permitted c as caller call := by
  constructor
  · generalize herror : Refusal.unauthorized.error = e
    intro hrejected
    cases hrejected with
    | underpaid | unwritable => cases herror
    | unauthorized hgas hcaller => exact ⟨Gas.le_of_sub?_eq_some hgas, hcaller⟩
    | refused _ _ _ hrefused => exact absurd herror.symm hrefused.error_ne_unauthorized
  · rintro ⟨hgas, hcaller⟩
    exact .unauthorized (Gas.sub?_of_le hgas) hcaller

theorem Rejected.isRevert {c : Config} {caller : Address} {block : Word} {readOnly : Bool}
    {gas : Gas} {as : Accounts} {call : TokenDualityCall} {e : CallError}
    (h : Rejected c caller block readOnly gas as call e) : e.isRevert = false := by
  cases h <;> rfl

/-- A call that is out of gas or unauthorized is so whether or not state may be written. -/
theorem Rejected.of_early {c : Config} {caller : Address} {block : Word} {gas : Gas}
    {as : Accounts} {call : TokenDualityCall} {e : CallError}
    (h : Rejected c caller block false gas as call e)
    (hearly : e = .outOfGas ∨ e = Refusal.unauthorized.error) (readOnly : Bool) :
    Rejected c caller block readOnly gas as call e := by
  cases h with
  | underpaid hgas => exact .underpaid hgas
  | unauthorized hgas hcaller => exact .unauthorized hgas hcaller
  | unwritable _ _ _ hro => cases hro
  | refused _ _ _ hrefused =>
    rcases hearly with hgas | hauthority
    · cases hgas
    · exact absurd hauthority hrefused.error_ne_unauthorized

/-- A call that is neither, and does not only look, may not write where nothing may be written,
whatever the block. -/
theorem rejected_of_late {c : Config} {caller : Address} {block block' : Word} {gas : Gas}
    {as : Accounts} {call : TokenDualityCall} (hwrites : looks call = false)
    (hpaid : ¬ Rejected c caller block false gas as call .outOfGas)
    (hpermitted : ¬ Rejected c caller block false gas as call Refusal.unauthorized.error) :
    Rejected c caller block' true gas as call .writeProtection := by
  cases hgas : Gas.sub? gas (price call) with
  | none => exact absurd (.underpaid hgas) hpaid
  | some left =>
    by_cases hcaller : Permitted c as caller call
    · exact .unwritable hgas hcaller hwrites rfl
    · exact absurd (.unauthorized hgas hcaller) hpermitted

/-! ### Failure, function by function -/

section

open Program

variable {h : Host} {frame : Frame} {gas : Gas} {w : World} {c : Config} {a caller : Address}
  {block amount : Word} {e : CallError}

@[simp] theorem fails_isAllowlisted : ¬ (isAllowlisted a).Fails h frame gas w e := by
  simp [isAllowlisted, fails_bind]

@[simp] theorem fails_transferredIn : ¬ (transferredIn block).Fails h frame gas w e := by
  simp only [transferredIn, fails_bind, fails_readStorage, yields_readStorage, false_or]
  rintro ⟨value, between, world, -, hfails⟩
  split at hfails
  · exact fails_readStorage hfails
  · exact fails_pure hfails

@[simp] theorem fails_setAllowlisted {listed : Bool} :
    (setAllowlisted a listed).Fails h frame gas w e ↔
      h.context.readOnly = true ∧ e = .writeProtection := by
  cases hro : h.context.readOnly <;> simp [setAllowlisted, fails_bind, hro]

@[simp] theorem fails_authorize :
    (authorize c caller).Fails h frame gas w e ↔
      ¬ Authorized c w.state.accounts caller ∧ e = Refusal.unauthorized.error := by
  by_cases hadmin : caller = c.admin
  · simp [authorize, Authorized, hadmin]
  · by_cases hlisted : Listed w.state.accounts caller
    · simp [authorize, Authorized, hadmin, hlisted, fails_bind]
    · simp [authorize, Authorized, hadmin, hlisted, fails_bind]

@[simp] theorem fails_checkCallCap :
    (checkCallCap c amount).Fails h frame gas w e ↔
      ∃ cap, c.perCallCap = some cap ∧ ¬ amount ≤ cap ∧
        e = (Refusal.overPerCallCap amount cap).error := by
  cases hcap : c.perCallCap <;> simp [checkCallCap, hcap]

theorem fails_track (hwritable : h.context.readOnly = false) :
    (track c block amount).Fails h frame gas w e ↔
      ∃ r, TrackRefused c block amount w.state.accounts r ∧ e = r.error := by
  cases hcap : c.perBlockCap with
  | none =>
    simp only [track, hcap, Program.pure_eq, fails_pure, false_iff]
    rintro ⟨r, hrefused, -⟩
    cases hrefused with
    | untrackable hsome | overCap hsome => simp [hcap] at hsome
  | some cap =>
    simp only [track, hcap, fails_bind, fails_transferredIn, yields_transferredIn, false_or,
      and_assoc, exists_and_left, exists_eq_left]
    cases htotal : (recorded w.state.accounts block).add? amount with
    | none =>
      simp only [fails_fail]
      constructor
      · rintro rfl
        exact ⟨_, .untrackable hcap htotal, rfl⟩
      · rintro ⟨r, hrefused, rfl⟩
        cases hrefused with
        | untrackable => rfl
        | overCap _ hsome => simp [htotal] at hsome
    | some total =>
      simp only [fails_bind, fails_require, yields_require, fails_createAccount,
        yields_createAccount, fails_setStorage, hwritable, decide_eq_false_iff_not,
        Bool.false_eq_true, false_and, and_false, exists_false, or_false]
      constructor
      · rintro ⟨hgt, rfl⟩
        exact ⟨_, .overCap hcap htotal hgt, rfl⟩
      · rintro ⟨r, hrefused, rfl⟩
        cases hrefused with
        | untrackable _ hnone => simp [htotal] at hnone
        | overCap hsome hadd hgt =>
          obtain rfl : cap = _ := Option.some.inj (hcap.symm.trans hsome)
          obtain rfl : total = _ := Option.some.inj (htotal.symm.trans hadd)
          exact ⟨hgt, rfl⟩

/-- Nothing but a transfer to nobody is refused where nothing is to be moved. -/
theorem transferRefused_iff_of_stays {source target : Address} {as : Accounts} {r : Refusal}
    (hstay : amount = 0 ∨ source = target) :
    TransferRefused c block source target amount as r ↔ target = 0 ∧ r = .zeroRecipient := by
  constructor
  · intro hrefused
    cases hrefused with
    | zeroRecipient htarget => exact ⟨htarget, rfl⟩
    | overCallCap hmoves | untracked hmoves | insufficient hmoves | overflow hmoves =>
      exact absurd hstay (not_or.mpr hmoves.2)
  · rintro ⟨htarget, rfl⟩
    exact .zeroRecipient htarget

theorem fails_transfer (hwritable : h.context.readOnly = false) {source target : Address} :
    (transfer c block source target amount).Fails h frame gas w e ↔
      ∃ r, TransferRefused c block source target amount w.state.accounts r ∧ e = r.error := by
  by_cases hamount : amount = 0
  · simp only [transfer, hamount, if_true, fails_bind, fails_require, decide_eq_false_iff_not,
      Decidable.not_not, Program.pure_eq, fails_pure, and_false, exists_false, or_false,
      transferRefused_iff_of_stays (.inl rfl), and_assoc, exists_and_left, exists_eq_left]
  · by_cases hne : source = target
    · simp only [transfer, hamount, if_false, if_pos hne, fails_bind, fails_require,
        decide_eq_false_iff_not, Decidable.not_not, fails_log, and_false, exists_false, or_false,
        transferRefused_iff_of_stays (.inr hne), and_assoc, exists_and_left, exists_eq_left]
    · simp only [transfer, hamount, if_false, if_neg hne, fails_bind, fails_require, yields_require,
        fails_checkCallCap, yields_checkCallCap, fails_track hwritable, yields_track hwritable,
        fails_createAccount, yields_createAccount, fails_debit, yields_debit, fails_credit,
        yields_credit, fails_log, yields_log, hwritable, World.accounts_holding,
        decide_eq_false_iff_not, decide_eq_true_eq, and_assoc, exists_and_left, exists_eq_left,
        exists_const, true_and, Bool.false_eq_true, false_and, and_false, false_or, or_false,
        exists_false]
      constructor
      · rintro (⟨htarget, rfl⟩ | ⟨htarget, ⟨cap, hcap, hgt, rfl⟩ | ⟨hcap, ⟨r, hrefused, rfl⟩ |
          ⟨between, world, ⟨tracked, htracked, rfl, rfl⟩, hdebit | ⟨hdebit, hcredit⟩⟩⟩⟩)
        · exact ⟨_, .zeroRecipient (Decidable.not_not.mp htarget), rfl⟩
        · exact ⟨_, .overCallCap ⟨htarget, hamount, hne⟩ hcap hgt, rfl⟩
        · exact ⟨r, .untracked ⟨htarget, hamount, hne⟩ hcap hrefused, rfl⟩
        · obtain ⟨hdebit, rfl⟩ := hdebit
          rw [Option.isSome_eq_false_iff, Option.isNone_iff_eq_none] at hdebit
          exact ⟨_, .insufficient ⟨htarget, hamount, hne⟩ hcap htracked hdebit, rfl⟩
        · obtain ⟨debited, hdebited⟩ := Option.isSome_iff_exists.mp hdebit
          obtain ⟨hcredit, rfl⟩ := hcredit
          rw [World.accounts_holding] at hdebited
          rw [World.accounts_holding, hdebited, Option.isSome_eq_false_iff,
            Option.isNone_iff_eq_none] at hcredit
          exact ⟨_, .overflow ⟨htarget, hamount, hne⟩ hcap htracked hdebited hcredit, rfl⟩
      · rintro ⟨r, hrefused, rfl⟩
        cases hrefused with
        | zeroRecipient htarget => exact .inl ⟨Decidable.not_not.mpr htarget, rfl⟩
        | overCallCap hmoves hcap hgt => exact .inr ⟨hmoves.1, .inl ⟨_, hcap, hgt, rfl⟩⟩
        | untracked hmoves hcap hrefused =>
          exact .inr ⟨hmoves.1, .inr ⟨hcap, .inl ⟨r, hrefused, rfl⟩⟩⟩
        | insufficient hmoves hcap htracked hdebit =>
          refine .inr ⟨hmoves.1, .inr ⟨hcap, .inr ⟨_, _, ⟨_, htracked, rfl, rfl⟩, .inl ?_⟩⟩⟩
          rw [World.accounts_holding, hdebit]
          exact ⟨rfl, rfl⟩
        | overflow hmoves hcap htracked hdebit hcredit =>
          refine .inr ⟨hmoves.1, .inr ⟨hcap, .inr ⟨_, _, ⟨_, htracked, rfl, rfl⟩, .inr ?_⟩⟩⟩
          rw [World.accounts_holding, hdebit]
          exact ⟨rfl, by rw [Option.getD_some, hcredit]; rfl, rfl⟩

theorem fails_updateAllowlist {listed : Bool} :
    (updateAllowlist c caller a listed).Fails h frame gas w e ↔
      Gas.sub? gas updateGas = none ∧ e = .outOfGas ∨
        ∃ left, Gas.sub? gas updateGas = some left ∧
          (caller ≠ c.admin ∧ e = Refusal.unauthorized.error ∨
            caller = c.admin ∧ h.context.readOnly = true ∧ e = .writeProtection) := by
  simp only [updateAllowlist, fails_bind, fails_charge, yields_charge, fails_require,
    yields_require, fails_setAllowlisted, fails_log, decide_eq_false_iff_not, decide_eq_true_eq,
    and_assoc, exists_and_left, exists_eq_left, exists_const, and_false, exists_false, or_false]

theorem fails_update {call : TokenDualityCall} {listed : Bool}
    (hupdate : update? call = some (a, listed)) :
    (updateAllowlist c caller a listed >>= fun _ => Program.pure ([] : Bytes)).Fails h frame gas w
        e ↔
      Rejected c caller block h.context.readOnly gas w.state.accounts call e := by
  have hmethod : price call = updateGas ∧ looks call = false ∧
      (Permitted c w.state.accounts caller call ↔ caller = c.admin) := by
    cases call with
    | addToAllowList | removeFromAllowList => exact ⟨rfl, rfl, Iff.rfl⟩
    | transfer | allowlist | transferredThisBlock | perCallCap | perBlockCap => cases hupdate
  obtain ⟨hprice, hwrites, hpermitted⟩ := hmethod
  simp only [fails_bind, fails_updateAllowlist, fails_pure, and_false, exists_false, or_false]
  constructor
  · rintro (⟨hgas, rfl⟩ | ⟨left, hgas, ⟨hcaller, rfl⟩ | ⟨hcaller, hro, rfl⟩⟩)
    · exact .underpaid (hprice ▸ hgas)
    · exact .unauthorized (hprice ▸ hgas) (mt hpermitted.mp hcaller)
    · exact .unwritable (hprice ▸ hgas) (hpermitted.mpr hcaller) hwrites hro
  · intro hrejected
    cases hrejected with
    | underpaid hgas => exact .inl ⟨hprice ▸ hgas, rfl⟩
    | unauthorized hgas hcaller =>
      exact .inr ⟨_, hprice ▸ hgas, .inl ⟨mt hpermitted.mpr hcaller, rfl⟩⟩
    | unwritable hgas hcaller _ hro =>
      exact .inr ⟨_, hprice ▸ hgas, .inr ⟨hpermitted.mp hcaller, hro, rfl⟩⟩
    | refused => cases hupdate

theorem rejected_iff_of_looks {call : TokenDualityCall} {readOnly : Bool} {as : Accounts}
    (hlooks : looks call = true) :
    Rejected c caller block readOnly gas as call e ↔
      Gas.sub? gas viewGas = none ∧ e = .outOfGas := by
  have hprice := price_of_looks hlooks
  have hpermitted : Permitted c as caller call := by
    cases call with
    | allowlist | transferredThisBlock | perCallCap | perBlockCap => trivial
    | transfer | addToAllowList | removeFromAllowList => cases hlooks
  constructor
  · intro hrejected
    cases hrejected with
    | underpaid hgas => exact ⟨hprice ▸ hgas, rfl⟩
    | unauthorized _ hcaller => exact absurd hpermitted hcaller
    | unwritable _ _ hwrites => simp [hlooks] at hwrites
    | refused => cases hlooks
  · rintro ⟨hgas, rfl⟩
    exact .underpaid (hprice ▸ hgas)

theorem fails_execute {call : TokenDualityCall} :
    (execute c caller block call).Fails h frame gas w e ↔
      Rejected c caller block h.context.readOnly gas w.state.accounts call e := by
  cases call with
  | transfer source target amount =>
    simp only [execute, fails_bind, fails_charge, yields_charge, fails_authorize, yields_authorize,
      fails_requireWritable, yields_requireWritable, Program.pure_eq, fails_pure, and_assoc,
      exists_and_left, exists_eq_left, exists_const, and_false, exists_false, or_false]
    constructor
    · rintro (⟨hgas, rfl⟩ | ⟨left, hgas, ⟨hcaller, rfl⟩ | ⟨hcaller, ⟨hro, rfl⟩ | ⟨hro, htransfer⟩⟩⟩)
      · exact .underpaid hgas
      · exact .unauthorized hgas hcaller
      · exact .unwritable hgas hcaller rfl hro
      · obtain ⟨r, hrefused, rfl⟩ := (fails_transfer hro).mp htransfer
        exact .refused hgas hcaller hro hrefused
    · intro hrejected
      cases hrejected with
      | underpaid hgas => exact .inl ⟨hgas, rfl⟩
      | unauthorized hgas hcaller => exact .inr ⟨_, hgas, .inl ⟨hcaller, rfl⟩⟩
      | unwritable hgas hcaller _ hro => exact .inr ⟨_, hgas, .inr ⟨hcaller, .inl ⟨hro, rfl⟩⟩⟩
      | refused hgas hcaller hwritable hrefused =>
        refine .inr ⟨_, hgas, .inr ⟨hcaller, .inr ⟨hwritable, ?_⟩⟩⟩
        exact (fails_transfer hwritable).mpr ⟨_, hrefused, rfl⟩
  | addToAllowList a => exact fails_update rfl
  | removeFromAllowList a => exact fails_update rfl
  | allowlist a =>
    rw [rejected_iff_of_looks rfl]
    simp only [execute, fails_bind, fails_charge, fails_isAllowlisted, Program.pure_eq, fails_pure,
      and_false, exists_false, or_false]
  | transferredThisBlock =>
    rw [rejected_iff_of_looks rfl]
    simp only [execute, fails_bind, fails_charge, fails_transferredIn, Program.pure_eq, fails_pure,
      and_false, exists_false, or_false]
  | perCallCap | perBlockCap =>
    rw [rejected_iff_of_looks rfl]
    simp only [execute, fails_bind, fails_charge, Program.pure_eq, fails_pure, and_false,
      exists_false, or_false]

/-- The routine fails if its input decodes to no call, or as the call does that it decodes to. -/
theorem fails_routine {input : Bytes} :
    (routine c input).Fails h frame gas w e ↔
      (∃ fault, TokenDualityCall.decode input = .error fault ∧ e = .other fault.message) ∨
        ∃ call, TokenDualityCall.decode input = .ok call ∧
          Rejected c frame.contract.caller h.setting.block.number h.context.readOnly gas
            w.state.accounts call e := by
  simp only [routine, fails_bind, fails_observe, yields_observe, fails_log, yields_log, false_or,
    and_assoc, exists_and_left, exists_eq_left, exists_const]
  cases hdecode : TokenDualityCall.decode input with
  | error fault => simp
  | ok call =>
    simp only [fails_bind, fails_chain, yields_chain, fails_execute, false_or, and_assoc,
      exists_and_left, exists_eq_left]
    simp only [reduceCtorEq, false_and, exists_false, false_or, Except.ok.injEq, exists_eq_left']
    rfl

end

end PrecompileHost.Native.TokenDuality
