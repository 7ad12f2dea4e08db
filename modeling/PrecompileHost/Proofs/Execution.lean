import PrecompileHost.Dispatch.Lemmas
import PrecompileHost.Engine
import PrecompileHost.Host.Lemmas
import PrecompileHost.State.Lemmas

/-!
What a step of execution can do, said once. A call is turned away, or fails for want of room for
its value, or is handed to its callee, which is dealt with in one of six ways; a routine ends or
goes on after an operation or a nested call. Every fact about whole call trees is an induction
along these two descriptions, `dispatch_induction` and `Program.run_induction`, and none of them
opens the dispatcher again.
-/

namespace PrecompileHost

/-- The host of a frame in context `c` which may still open `levels` levels of calls. -/
def Setting.host (s : Setting) (levels : Nat) (c : CallContext) : Host :=
  { setting := s, context := c, dispatch := dispatch s levels c }

namespace Request

/-- The request as it is carried out: the value is dropped where the call type carries none. -/
def made (r : Request) : Request :=
  { r with value := r.carriedValue }

@[simp] theorem callType_made (r : Request) : r.made.callType = r.callType := rfl

@[simp] theorem target_made (r : Request) : r.made.target = r.target := rfl

@[simp] theorem input_made (r : Request) : r.made.input = r.input := rfl

@[simp] theorem gas_made (r : Request) : r.made.gas = r.gas := rfl

/-- The value that a call moves; only a plain call moves any. -/
def movedValue (r : Request) : Word :=
  if r.callType = .call then r.value else 0

theorem movedValue_eq_zero {r : Request} (h : r.callType = .call → r.value = 0) :
    r.movedValue = 0 := by
  unfold movedValue
  split
  · exact h ‹_›
  · rfl

/-- Funding a call transfers the value that it moves. -/
theorem fund?_made (r : Request) (t : State) :
    r.made.fund? t =
      (t.accounts.transfer? r.caller.address r.target r.movedValue).map
        fun accounts => { t with accounts } := by
  obtain ⟨callType, caller, target, input, gas, value⟩ := r
  cases callType <;> rfl

/-- How a callee is dealt with, and the run that this comes to. -/
inductive Handled (s : Setting) (levels : Nat) (c : CallContext) (r : Request) (w : World) :
    Handling → Run Bytes → Prop
  | codeless (hactive : s.active.get? r.target = none) :
      Handled s levels c r w .codeless ⟨.returned (.ok []), r.gas, w, .done⟩
  | underpaid {price : Bytes → Gas} {run : Bytes → CallResult}
      (hactive : s.active.get? r.target = some (.stateless price run))
      (hgas : Gas.sub? r.gas (price r.input) = none) :
      Handled s levels c r w (.underpaid (price r.input))
        ⟨.returned (.error .outOfGas), 0, w, .done⟩
  | stateless {price : Bytes → Gas} {run : Bytes → CallResult} {left : Gas}
      (hactive : s.active.get? r.target = some (.stateless price run))
      (hgas : Gas.sub? r.gas (price r.input) = some left) :
      Handled s levels c r w (.stateless (price r.input))
        ⟨.returned (run r.input), left, w, .done⟩
  | parentless {routine : Bytes → Program Bytes}
      (hactive : s.active.get? r.target = some (.stateful routine)) (hframe : r.frame? = none) :
      Handled s levels c r w .parentless
        ⟨.returned (.error .delegateWithoutFrame), r.gas, w, .done⟩
  | uncountable {routine : Bytes → Program Bytes} {frame : Frame}
      (hactive : s.active.get? r.target = some (.stateful routine))
      (hframe : r.frame? = some frame) (hdepth : CallContext.depthLimit ≤ c.depth + 1) :
      Handled s levels c r w .uncountable
        ⟨.aborted "attempt to add with overflow", r.gas, w, .done⟩
  | entered {routine : Bytes → Program Bytes} {frame : Frame}
      (hactive : s.active.get? r.target = some (.stateful routine))
      (hframe : r.frame? = some frame) (hdepth : c.depth + 1 < CallContext.depthLimit) :
      Handled s levels c r w (.entered frame)
        ((routine r.input).run (s.host levels (c.enter r.callType)) frame r.gas w)

theorem handled_runTarget (s : Setting) (levels : Nat) (c : CallContext) (r : Request)
    (w : World) :
    r.Handled s levels c w (r.runTarget s (dispatch s levels) c w).1
      (r.runTarget s (dispatch s levels) c w).2 := by
  unfold runTarget
  cases hactive : s.active.get? r.target with
  | none => exact .codeless hactive
  | some p =>
    cases p with
    | stateless price run =>
      dsimp only
      cases hgas : Gas.sub? r.gas (price r.input) with
      | none => exact .underpaid hactive hgas
      | some left => exact .stateless hactive hgas
    | stateful routine =>
      dsimp only [enter]
      cases hframe : r.frame? with
      | none => exact .parentless hactive hframe
      | some frame =>
        dsimp only
        split
        · exact .uncountable hactive hframe ‹_›
        · exact .entered hactive hframe (Nat.lt_of_not_le ‹_›)

/-- What becomes of a call that the depth limit allows: the callee is only reached after a
snapshot has been taken and the value moved. -/
inductive Executed (s : Setting) (levels : Nat) (c : CallContext) (r : Request) (w : World) :
    Dispatched → Prop
  | unfunded (hbalance : w.state.accounts.balance r.caller.address < r.carriedValue) :
      Executed s levels c r w (.refused r.made c .unfunded .insufficientBalance w)
  | overfull (hbalance : ¬ w.state.accounts.balance r.caller.address < r.carriedValue)
      (hfund : r.made.fund? w.state.snapshot.2 = none) :
      Executed s levels c r w
        (.settle r.made c w.state.snapshots.length w.state.snapshot.2 .overfull
          ⟨.returned (.error .insufficientBalance), r.gas, { w with state := w.state.snapshot.2 },
            .done⟩)
  | handled (hbalance : ¬ w.state.accounts.balance r.caller.address < r.carriedValue)
      {found : State} (hfund : r.made.fund? w.state.snapshot.2 = some found)
      {handling : Handling} {callee : Run Bytes}
      (hhandled : r.made.Handled s levels c { w with state := found } handling callee) :
      Executed s levels c r w
        (.settle r.made c w.state.snapshots.length found handling callee)

theorem executed_execute (s : Setting) (levels : Nat) (c : CallContext) (r : Request)
    (w : World) : r.Executed s levels c w (r.execute s (dispatch s levels) c w) := by
  unfold execute
  dsimp only
  split
  · exact .unfunded ‹_›
  · rename_i hbalance
    split
    · rename_i hfund
      exact .overfull hbalance hfund
    · rename_i found hfund
      exact .handled hbalance hfund (r.made.handled_runTarget s levels c _)

section

variable {s : Setting} {nested : CallContext → Request → World → Dispatched} {c : CallContext}
  {r : Request} {w : World}

theorem execute_of_unfunded (h : w.state.accounts.balance r.caller.address < r.carriedValue) :
    r.execute s nested c w = .refused r.made c .unfunded .insufficientBalance w :=
  if_pos h

theorem execute_of_overfull (h : ¬ w.state.accounts.balance r.caller.address < r.carriedValue)
    (hfund : r.made.fund? w.state.snapshot.2 = none) :
    r.execute s nested c w =
      .settle r.made c w.state.snapshots.length w.state.snapshot.2 .overfull
        ⟨.returned (.error .insufficientBalance), r.gas, { w with state := w.state.snapshot.2 },
          .done⟩ := by
  unfold execute
  dsimp only
  rw [if_neg h]
  split
  · rfl
  · rename_i found hsome
    cases hfund.symm.trans hsome

theorem execute_of_funded (h : ¬ w.state.accounts.balance r.caller.address < r.carriedValue)
    {found : State} (hfund : r.made.fund? w.state.snapshot.2 = some found) :
    r.execute s nested c w =
      .settle r.made c w.state.snapshots.length found
        (r.made.runTarget s nested c { w with state := found }).1
        (r.made.runTarget s nested c { w with state := found }).2 := by
  unfold execute
  dsimp only
  rw [if_neg h]
  split
  · rename_i hnone
    cases hfund.symm.trans hnone
  · rename_i found' hsome
    cases hfund.symm.trans hsome
    rfl

end

/-- Funding a call leaves the snapshots alone. -/
theorem snapshots_of_fund? {r : Request} {t found : State} (h : r.fund? t = some found) :
    found.snapshots = t.snapshots := by
  unfold fund? at h
  split at h
  · cases htransfer : t.accounts.transfer? r.caller.address r.target r.value with
    | none =>
      rw [htransfer] at h
      cases h
    | some accounts =>
      rw [htransfer] at h
      cases h
      rfl
  all_goals
    cases h
    rfl

end Request

namespace Dispatched

variable (r : Request) (c : CallContext) (id : Nat) (found : State) (handling : Handling)
  (callee : Run Bytes)

@[simp] theorem request_settle : (settle r c id found handling callee).record.request = r := by
  unfold settle
  split <;> rfl

@[simp] theorem context_settle : (settle r c id found handling callee).record.context = c := by
  unfold settle
  split <;> rfl

@[simp] theorem handling_settle :
    (settle r c id found handling callee).record.handling = handling := by
  unfold settle
  split <;> rfl

@[simp] theorem found_settle : (settle r c id found handling callee).record.found = found := by
  unfold settle
  split <;> rfl

@[simp] theorem left_settle :
    (settle r c id found handling callee).record.left = callee.world.state := by
  unfold settle
  split <;> rfl

@[simp] theorem body_settle : (settle r c id found handling callee).body = callee.trace := by
  unfold settle
  split <;> rfl

end Dispatched

/-- A property of calls holds of every call, nested calls included, if it holds of a call too deep
to be made and of a call whose nested calls have it. -/
theorem dispatch_induction {s : Setting} {P : CallContext → Request → World → Dispatched → Prop}
    (tooDeep : ∀ c r w, P c r w (.refused r c .tooDeep .callDepthExceeded w))
    (executed : ∀ levels, (∀ c r w, P c r w (dispatch s levels c r w)) →
      ∀ c r w d, r.Executed s levels c w d → P c r w d)
    (levels : Nat) (c : CallContext) (r : Request) (w : World) :
    P c r w (dispatch s levels c r w) := by
  induction levels generalizing c r w with
  | zero => exact tooDeep c r w
  | succ levels ih => exact executed levels ih c r w _ (r.executed_execute s levels c w)

/-- A nested call that returns to its frame is a dispatched call, made with the gas that the
frame has set aside for it. -/
theorem Host.attempt_eq_returned {h : Host} {frame : Frame} {gas left : Gas} {w : World}
    {call : NestedCall} {result : CallResult} {d : Dispatched}
    (ha : h.attempt frame gas w call = .returned result left d) :
    ∃ reserved outcome, h.reserve gas call = .ok reserved ∧
      d = h.dispatch (call.request frame reserved) w ∧ d.record.ending = .returned outcome ∧
      result = outcome.result ∧ left = Gas.addSaturating reserved outcome.gasLeft := by
  cases hreserve : h.reserve gas call with
  | error e =>
    rw [h.attempt_of_reserve_error _ _ _ _ hreserve] at ha
    cases ha
  | ok reserved =>
    cases hending : (h.dispatch (call.request frame reserved) w).record.ending with
    | aborted m =>
      rw [h.attempt_of_aborted _ _ _ _ hreserve hending] at ha
      cases ha
    | returned outcome =>
      rw [h.attempt_of_returned _ _ _ _ hreserve hending] at ha
      cases ha
      exact ⟨reserved, outcome, rfl, rfl, hending, rfl, rfl⟩

/-- A property of runs holds of every routine if it holds where a routine ends, and if an
operation or a nested call keeps it from what follows. -/
theorem Program.run_induction {α : Type} {h : Host} {frame : Frame}
    {P : Gas → World → Run α → Prop}
    (pure : ∀ a gas w, P gas w ⟨.returned (.ok a), gas, w, .done⟩)
    (fail : ∀ e gas w, P gas w ⟨.returned (.error e), gas, w, .done⟩)
    (abort : ∀ m gas w, P gas w ⟨.aborted m, gas, w, .done⟩)
    (perform : ∀ o gas w rest,
      P (h.perform frame gas w o).2.1 (h.perform frame gas w o).2.2 rest →
        P gas w (rest.mapTrace (.performed o (h.perform frame gas w o).1)))
    (declined : ∀ call e gas w rest, h.reserve gas call = .error e → P gas w rest →
      P gas w (rest.mapTrace (.declined call e)))
    (aborted : ∀ call m reserved gas w d, h.reserve gas call = .ok reserved →
      d = h.dispatch (call.request frame reserved) w → d.record.ending = .aborted m →
        P gas w ⟨.aborted m, reserved, d.world, .called d.record d.body .done⟩)
    (returned : ∀ call outcome reserved gas w d rest, h.reserve gas call = .ok reserved →
      d = h.dispatch (call.request frame reserved) w → d.record.ending = .returned outcome →
        P (Gas.addSaturating reserved outcome.gasLeft) d.world rest →
          P gas w (rest.mapTrace (.called d.record d.body)))
    (p : Program α) (gas : Gas) (w : World) : P gas w (p.run h frame gas w) := by
  induction p generalizing gas w with
  | pure a => exact pure a gas w
  | fail e => exact fail e gas w
  | abort m => exact abort m gas w
  | perform o next ih =>
    rw [run_perform]
    exact perform o gas w _ (ih _ _ _)
  | call call next ih =>
    cases hreserve : h.reserve gas call with
    | error e =>
      rw [run_call_of_declined _ _ _ _ _ (h.attempt_of_reserve_error _ _ _ _ hreserve)]
      exact declined call e gas w _ hreserve (ih _ _ _)
    | ok reserved =>
      cases hending : (h.dispatch (call.request frame reserved) w).record.ending with
      | aborted m =>
        rw [run_call_of_aborted _ _ _ _ _ (h.attempt_of_aborted _ _ _ _ hreserve hending)]
        exact aborted call m reserved gas w _ hreserve rfl hending
      | returned outcome =>
        rw [run_call_of_returned _ _ _ _ _ (h.attempt_of_returned _ _ _ _ hreserve hending)]
        exact returned call outcome reserved gas w _ _ hreserve rfl hending (ih _ _ _)

namespace Engine

variable (e : Engine) (origin target : Address) (input : Bytes) (gas : Gas) (value : Word)

/-- A transaction is a plain call of its origin, in a fresh context. -/
@[simp] theorem call_transact : (e.transact origin target input gas value).call =
    (e.beginTransaction origin).call (.account origin) target input gas value := by
  unfold transact
  dsimp only
  split <;> rfl

/-- Collecting the reason of an invalidation does not touch the state. -/
@[simp] theorem state_transact : (e.transact origin target input gas value).engine.world.state =
    ((e.beginTransaction origin).call (.account origin) target input gas value).world.state := by
  unfold transact
  dsimp only
  split <;> rfl

end Engine

@[simp] theorem Run.ending_mapTrace {α : Type} (f : Trace → Trace) (r : Run α) :
    (r.mapTrace f).ending = r.ending := rfl

@[simp] theorem Run.gas_mapTrace {α : Type} (f : Trace → Trace) (r : Run α) :
    (r.mapTrace f).gas = r.gas := rfl

@[simp] theorem Run.world_mapTrace {α : Type} (f : Trace → Trace) (r : Run α) :
    (r.mapTrace f).world = r.world := rfl

@[simp] theorem Run.trace_mapTrace {α : Type} (f : Trace → Trace) (r : Run α) :
    (r.mapTrace f).trace = f r.trace := rfl

end PrecompileHost
