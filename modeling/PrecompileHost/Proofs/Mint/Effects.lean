import PrecompileHost.Native.Mint
import PrecompileHost.Proofs.Asked
import PrecompileHost.Proofs.Discipline
import PrecompileHost.Proofs.Success

/-!
What a call of the mint precompile does when it succeeds: it was made by the admin, where state may
be written, and has credited or debited one account. The routine is a leaf that handles no
snapshots.
-/

namespace PrecompileHost.Native.Mint

/-- What a call that succeeds makes of the accounts. -/
inductive Effected (as : Accounts) : NativeTokenCall → Accounts → Prop
  | minted {recipient : Address} {amount : Word} {bs : Accounts}
      (hcredit : (as.create recipient).credit? recipient amount = some bs) :
      Effected as (.mint recipient amount) bs
  | burned {holder : Address} {amount : Word} {bs : Accounts}
      (hdebit : (as.create holder).debit? holder amount = some bs) :
      Effected as (.burn holder amount) bs

/-- The call that the precompile was asked for, if the record is one of a frame of its own. -/
abbrev asked? (r : CallRecord) : Option NativeTokenCall :=
  r.asked? address NativeTokenCall.decode

open Program

variable {h : Host} {frame : Frame} {gas left : Gas} {w after : World} {admin : Address}

theorem yields_execute {call : NativeTokenCall} {u : Unit} :
    (execute call).Yields h frame gas w u left after ↔
      h.context.readOnly = false ∧ left = gas ∧
        ∃ as, Effected w.state.accounts call as ∧ after = w.holding as := by
  cases call with
  | mint recipient amount =>
    simp only [execute, yields_bind, yields_createAccount, yields_credit, yields_require,
      yields_log, World.accounts_holding, World.holding_holding, and_assoc, exists_and_left,
      exists_eq_left, exists_const]
    constructor
    · rintro ⟨hwritable, -, hcredit, rfl, rfl⟩
      obtain ⟨as, hcredited⟩ := Option.isSome_iff_exists.mp hcredit
      exact ⟨hwritable, rfl, as, .minted hcredited, by rw [hcredited]; rfl⟩
    · rintro ⟨hwritable, rfl, as, heffected, rfl⟩
      cases heffected with
      | minted hcredit => exact ⟨hwritable, hwritable, by simp [hcredit], rfl, by simp [hcredit]⟩
  | burn holder amount =>
    simp only [execute, yields_bind, yields_createAccount, yields_debit, yields_require,
      yields_log, World.accounts_holding, World.holding_holding, and_assoc, exists_and_left,
      exists_eq_left, exists_const]
    constructor
    · rintro ⟨hwritable, -, hdebit, rfl, rfl⟩
      obtain ⟨as, hdebited⟩ := Option.isSome_iff_exists.mp hdebit
      exact ⟨hwritable, rfl, as, .burned hdebited, by rw [hdebited]; rfl⟩
    · rintro ⟨hwritable, rfl, as, heffected, rfl⟩
      cases heffected with
      | burned hdebit => exact ⟨hwritable, hwritable, by simp [hdebit], rfl, by simp [hdebit]⟩

/-- The routine carries out the call that its input decodes to, for its admin alone. -/
theorem yields_routine {input output : Bytes} :
    (routine admin input).Yields h frame gas w output left after ↔
      frame.contract.caller = admin ∧ Gas.sub? gas gasCost = some left ∧
        h.context.readOnly = false ∧ output = [] ∧
          ∃ call, NativeTokenCall.decode input = .ok call ∧
            ∃ as, Effected w.state.accounts call as ∧ after = w.holding as := by
  simp only [routine, yields_bind, yields_observe, yields_require, yields_charge,
    decide_eq_true_eq, and_assoc, exists_and_left, exists_eq_left, exists_const]
  cases hdecode : NativeTokenCall.decode input with
  | error e => simp
  | ok call =>
    simp only [yields_bind, yields_execute, Program.pure_eq, yields_pure]
    constructor
    · rintro ⟨hadmin, _, hgas, _, _, _, ⟨hwritable, rfl, as, heffected, rfl⟩, rfl, rfl, rfl⟩
      exact ⟨hadmin, hgas, hwritable, rfl, call, rfl, as, heffected, rfl⟩
    · rintro ⟨hadmin, hgas, hwritable, rfl, _, hcall, as, heffected, rfl⟩
      cases hcall
      exact ⟨hadmin, _, hgas, (), _, _, ⟨hwritable, rfl, as, heffected, rfl⟩, rfl, rfl, rfl⟩

/-! ### The text of the routine -/

theorem leaf_execute (call : NativeTokenCall) :
    (execute call).Leaf fun o => o.handlesSnapshots = false := by
  cases call with
  | mint | burn =>
    refine Leaf.bind (leaf_write rfl) fun _ => Leaf.bind (leaf_write rfl) fun done => ?_
    exact Leaf.bind (leaf_require _ _) fun _ => leaf_perform rfl

theorem leaf_routine (admin : Address) (input : Bytes) :
    (routine admin input).Leaf fun o => o.handlesSnapshots = false := by
  refine Leaf.bind (leaf_perform rfl) fun frame => ?_
  refine Leaf.bind (leaf_require _ _) fun _ => Leaf.bind (leaf_charge rfl) fun _ => ?_
  split
  · trivial
  · exact Leaf.bind (leaf_execute _) fun _ => trivial

end PrecompileHost.Native.Mint
