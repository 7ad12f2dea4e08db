import PrecompileHost.Proofs.Success

/-!
Failure taken apart, as success is. A sequence fails exactly if its first part does, or if its first
part succeeds and its second fails from there; a step fails exactly if what it asks for is not met.
A routine fails with the error of the first check that is not passed, so the error that a caller
sees tells which checks were passed before.
-/

namespace PrecompileHost.Program

variable {α β : Type}

/-- Started with `gas` in world `w`, the routine fails with `e`. -/
def Fails (h : Host) (frame : Frame) (p : Program α) (gas : Gas) (w : World) (e : CallError) :
    Prop :=
  (p.run h frame gas w).ending = .returned (.error e)

variable {h : Host} {frame : Frame} {gas left : Gas} {w : World} {e : CallError}

@[simp] theorem fails_pure {a : α} : ¬ (Program.pure a).Fails h frame gas w e := by
  intro hfails
  cases hfails

@[simp] theorem fails_fail {e' : CallError} :
    (Program.fail e' : Program α).Fails h frame gas w e ↔ e = e' := by
  constructor
  · rintro ⟨⟩
    rfl
  · rintro rfl
    rfl

theorem not_fails_abort {m : String} : ¬ (Program.abort m : Program α).Fails h frame gas w e := by
  intro hfails
  cases hfails

theorem fails_perform {o : Operation} {next : o.Answer → Program α} :
    (Program.perform o next).Fails h frame gas w e ↔
      (next (h.perform frame gas w o).1).Fails h frame (h.perform frame gas w o).2.1
        (h.perform frame gas w o).2.2 e :=
  Iff.rfl

theorem fails_call_of_declined {call : NestedCall} {e' : CallError}
    {next : CallResult → Program α} (ha : h.attempt frame gas w call = .declined e') :
    (Program.call call next).Fails h frame gas w e ↔
      (next (.error e')).Fails h frame gas w e := by
  unfold Fails
  rw [run_call_of_declined _ _ _ _ _ ha]
  rfl

theorem not_fails_call_of_aborted {call : NestedCall} {m : String} {reserved : Gas}
    {d : Dispatched} {next : CallResult → Program α}
    (ha : h.attempt frame gas w call = .aborted m reserved d) :
    ¬ (Program.call call next).Fails h frame gas w e := by
  intro hfails
  rw [Fails, run_call_of_aborted _ _ _ _ _ ha] at hfails
  cases hfails

theorem fails_call_of_returned {call : NestedCall} {result : CallResult} {reserved : Gas}
    {d : Dispatched} {next : CallResult → Program α}
    (ha : h.attempt frame gas w call = .returned result reserved d) :
    (Program.call call next).Fails h frame gas w e ↔
      (next result).Fails h frame reserved d.world e := by
  unfold Fails
  rw [run_call_of_returned _ _ _ _ _ ha]
  rfl

/-- A sequence fails if its first part does, or if its second does from where the first ends. -/
theorem fails_bind {p : Program α} {f : α → Program β} :
    (p >>= f).Fails h frame gas w e ↔
      p.Fails h frame gas w e ∨
        ∃ a between world, p.Yields h frame gas w a between world ∧
          (f a).Fails h frame between world e := by
  induction p generalizing gas w with
  | pure a => simp [and_assoc]
  | fail e' => simp
  | abort m =>
    constructor
    · intro hfails
      exact absurd hfails not_fails_abort
    · rintro (hfails | ⟨a, between, world, ⟨⟨⟩, -, -⟩, -⟩)
      exact absurd hfails not_fails_abort
  | perform o next ih =>
    rw [perform_bind, fails_perform, ih, fails_perform]
    simp only [yields_perform]
  | call call next ih =>
    rw [call_bind]
    cases ha : h.attempt frame gas w call with
    | declined e' =>
      simp only [fails_call_of_declined ha, yields_call_of_declined ha, ih]
    | aborted m reserved d =>
      simp only [not_fails_call_of_aborted ha, not_yields_call_of_aborted ha, false_and,
        exists_false, or_self]
    | returned result reserved d =>
      simp only [fails_call_of_returned ha, yields_call_of_returned ha, ih]

/-! ### Steps -/

/-- A single operation is always answered. -/
theorem not_fails_once {o : Operation} :
    ¬ (Program.perform o .pure).Fails h frame gas w e :=
  mt fails_perform.mp fails_pure

@[simp] theorem fails_observe : ¬ observe.Fails h frame gas w e :=
  not_fails_once

@[simp] theorem fails_chain : ¬ chain.Fails h frame gas w e :=
  not_fails_once

@[simp] theorem fails_read {q : Query} : ¬ (read q).Fails h frame gas w e :=
  not_fails_once

@[simp] theorem fails_log {event : Event} : ¬ (log event).Fails h frame gas w e :=
  not_fails_once

@[simp] theorem fails_require {condition : Bool} {e' : CallError} :
    (require condition e').Fails h frame gas w e ↔ condition = false ∧ e = e' := by
  cases condition <;> simp [require]

@[simp] theorem fails_charge {amount : Gas} :
    (charge amount).Fails h frame gas w e ↔ Gas.sub? gas amount = none ∧ e = .outOfGas := by
  rw [charge, useGas, perform_bind, fails_perform, Host.perform]
  cases hgas : Gas.sub? gas amount with
  | none => simp
  | some rest => simp

@[simp] theorem fails_requireWritable :
    requireWritable.Fails h frame gas w e ↔
      h.context.readOnly = true ∧ e = .writeProtection := by
  simp [requireWritable, fails_bind, Frame.observe]

@[simp] theorem fails_write {m : Mutation} :
    (write m).Fails h frame gas w e ↔ h.context.readOnly = true ∧ e = .writeProtection := by
  rw [write, write?, perform_bind, fails_perform, Host.perform]
  cases h.context.readOnly <;> simp

/-! Reads and writes of single kinds, as for success. -/

@[simp] theorem fails_readStorage {a : Address} {key : Word} :
    ¬ @Fails Word h frame (read (.storage a key)) gas w e :=
  fails_read

@[simp] theorem fails_createAccount {a : Address} :
    @Fails Unit h frame (write (.createAccount a)) gas w e ↔
      h.context.readOnly = true ∧ e = .writeProtection :=
  fails_write

@[simp] theorem fails_setStorage {a : Address} {key value : Word} :
    @Fails Unit h frame (write (.setStorage a key value)) gas w e ↔
      h.context.readOnly = true ∧ e = .writeProtection :=
  fails_write

@[simp] theorem fails_credit {a : Address} {amount : Word} :
    @Fails Bool h frame (write (.credit a amount)) gas w e ↔
      h.context.readOnly = true ∧ e = .writeProtection :=
  fails_write

@[simp] theorem fails_debit {a : Address} {amount : Word} :
    @Fails Bool h frame (write (.debit a amount)) gas w e ↔
      h.context.readOnly = true ∧ e = .writeProtection :=
  fails_write

end PrecompileHost.Program
