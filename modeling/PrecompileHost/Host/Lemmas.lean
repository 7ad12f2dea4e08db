import PrecompileHost.Host

/-!
Execution of routines step by step: what running each form of a routine comes to, and what a
nested call comes to for its frame.
-/

namespace PrecompileHost

namespace Program

variable {α : Type} (h : Host) (frame : Frame) (gas : Gas) (w : World)

@[simp] theorem run_pure (a : α) :
    (Program.pure a).run h frame gas w = ⟨.returned (.ok a), gas, w, .done⟩ := rfl

@[simp] theorem run_fail (e : CallError) :
    (Program.fail e : Program α).run h frame gas w = ⟨.returned (.error e), gas, w, .done⟩ := rfl

@[simp] theorem run_abort (m : String) :
    (Program.abort m : Program α).run h frame gas w = ⟨.aborted m, gas, w, .done⟩ := rfl

theorem run_perform (o : Operation) (next : o.Answer → Program α) :
    (Program.perform o next).run h frame gas w =
      let step := h.perform frame gas w o
      ((next step.1).run h frame step.2.1 step.2.2).mapTrace (.performed o step.1) := rfl

theorem run_call_of_declined {c : NestedCall} {e : CallError} (next : CallResult → Program α)
    (ha : h.attempt frame gas w c = .declined e) :
    (Program.call c next).run h frame gas w =
      ((next (.error e)).run h frame gas w).mapTrace (.declined c e) := by
  rw [run, ha]

theorem run_call_of_aborted {c : NestedCall} {m : String} {left : Gas} {d : Dispatched}
    (next : CallResult → Program α) (ha : h.attempt frame gas w c = .aborted m left d) :
    (Program.call c next).run h frame gas w =
      ⟨.aborted m, left, d.world, .called d.record d.body .done⟩ := by
  rw [run, ha]

theorem run_call_of_returned {c : NestedCall} {result : CallResult} {left : Gas}
    {d : Dispatched} (next : CallResult → Program α)
    (ha : h.attempt frame gas w c = .returned result left d) :
    (Program.call c next).run h frame gas w =
      ((next result).run h frame left d.world).mapTrace (.called d.record d.body) := by
  rw [run, ha]

end Program

namespace Host

variable (h : Host) (frame : Frame) (gas : Gas) (w : World) (c : NestedCall)

theorem attempt_of_reserve_error {e : CallError} (hr : h.reserve gas c = .error e) :
    h.attempt frame gas w c = .declined e := by
  unfold attempt
  rw [hr]

theorem attempt_of_returned {left : Gas} {outcome : Outcome} (hr : h.reserve gas c = .ok left)
    (ho : (h.dispatch (c.request frame left) w).record.ending = .returned outcome) :
    h.attempt frame gas w c =
      .returned outcome.result (Gas.addSaturating left outcome.gasLeft)
        (h.dispatch (c.request frame left) w) := by
  unfold attempt
  rw [hr]
  simp only [ho]

theorem attempt_of_aborted {left : Gas} {m : String} (hr : h.reserve gas c = .ok left)
    (ho : (h.dispatch (c.request frame left) w).record.ending = .aborted m) :
    h.attempt frame gas w c = .aborted m left (h.dispatch (c.request frame left) w) := by
  unfold attempt
  rw [hr]
  simp only [ho]

/-- A nested call is declined for want of gas, or for a value where state is read-only. -/
theorem reserve_eq_ok_iff {left : Gas} :
    h.reserve gas c = .ok left ↔
      (h.context.readOnly = true → c.value = 0) ∧ Gas.sub? gas c.gas = some left := by
  unfold reserve
  by_cases hro : h.context.readOnly = true ∧ c.value ≠ 0
  · rw [if_pos hro]
    exact ⟨fun h => (nomatch h), fun h => absurd (h.1 hro.1) hro.2⟩
  · have hv : h.context.readOnly = true → c.value = 0 := fun hr =>
      Decidable.byContradiction fun hne => hro ⟨hr, hne⟩
    rw [if_neg hro]
    cases Gas.sub? gas c.gas with
    | none => exact ⟨fun h => (nomatch h), fun h => (nomatch h.2)⟩
    | some gas' => exact ⟨fun h => ⟨hv, by cases h; rfl⟩, fun h => by cases h.2; rfl⟩

/-- No operation writes where state is read-only. -/
theorem state_perform_of_readOnly (o : Operation) (hro : h.context.readOnly = true) :
    (h.perform frame gas w o).2.2.state = w.state := by
  cases o with
  | useGas amount =>
    simp only [perform]
    split <;> rfl
  | write m => simp only [perform, hro, if_true]
  | _ => rfl

end Host

end PrecompileHost
