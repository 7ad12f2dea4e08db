import PrecompileHost.Trace

/-!
What a recorded call has asked of a precompile with an interface of its own.
-/

namespace PrecompileHost.CallRecord

variable {ε γ : Type} {a : Address} {decode : Bytes → Except ε γ} {r : CallRecord}

/-- The call that the precompile at `a` was asked for, if the record is one of a frame there. -/
def asked? (a : Address) (decode : Bytes → Except ε γ) (r : CallRecord) : Option γ :=
  match r.handling with
  | .entered _ => if r.request.target = a then (decode r.request.input).toOption else none
  | _ => none

theorem asked?_of_frameless (h : ∀ frame, r.handling ≠ .entered frame) :
    r.asked? a decode = none := by
  cases hhandling : r.handling with
  | entered frame => exact absurd hhandling (h frame)
  | _ => simp only [asked?, hhandling]

theorem asked?_of_target_ne (h : r.request.target ≠ a) : r.asked? a decode = none := by
  cases hhandling : r.handling with
  | entered frame => simp only [asked?, hhandling, h, if_false]
  | _ => simp only [asked?, hhandling]

theorem asked?_of_entered {frame : Frame} {call : γ} (htarget : r.request.target = a)
    (hhandling : r.handling = .entered frame) (hdecode : decode r.request.input = .ok call) :
    r.asked? a decode = some call := by
  simp only [asked?, hhandling, htarget, if_true, hdecode]
  rfl

theorem entered_of_asked? {call : γ} (h : r.asked? a decode = some call) :
    ∃ frame, r.handling = .entered frame ∧ r.request.target = a ∧
      decode r.request.input = .ok call := by
  cases hhandling : r.handling with
  | entered frame =>
    simp only [asked?, hhandling] at h
    split at h
    · cases hdecode : decode r.request.input with
      | error fault => simp [hdecode, Except.toOption] at h
      | ok decoded =>
        simp only [hdecode, Except.toOption, Option.some.injEq] at h
        exact ⟨frame, rfl, ‹_›, by rw [h]⟩
    · cases h
  | _ => simp [asked?, hhandling] at h

end PrecompileHost.CallRecord
