import PrecompileHost.Proofs.Transcript

/-!
A record tells what has happened. How a call ends, in which state its caller goes on and, where a
frame was opened, what its routine has done can be read off the record and the transcript of the
call; and what holds of every call that is dispatched holds of every call in its tree.
-/

namespace PrecompileHost

/-- How a call ends whose callee has run like this. A failure takes the gas, unless it is a
revert. -/
def Run.settled (run : Run Bytes) : Ending Outcome :=
  match run.ending with
  | .aborted m => .aborted m
  | .returned (.ok output) => .returned ⟨.ok output, run.gas⟩
  | .returned (.error e) => .returned ⟨.error e, if e.isRevert then run.gas else 0⟩

/-- The state in which the caller goes on, if the call was made in state `before`. -/
def CallRecord.resume (r : CallRecord) (before : State) : State :=
  match r.ending with
  | .aborted _ => r.left
  | .returned ⟨.ok _, _⟩ => r.left.commit before.snapshots.length
  | .returned ⟨.error _, _⟩ => r.left.revertTo before.snapshots.length

namespace Dispatched

variable (r : Request) (c : CallContext) (before found : State) (handling : Handling)
  (callee : Run Bytes)

@[simp] theorem ending_settle (id : Nat) :
    (settle r c id found handling callee).record.ending = callee.settled := by
  unfold settle Run.settled
  split <;> simp only [*]

theorem state_settle :
    (settle r c before.snapshots.length found handling callee).world.state =
      (settle r c before.snapshots.length found handling callee).record.resume before := by
  cases hending : callee.ending with
  | aborted m =>
    rw [settle_of_aborted _ _ _ _ _ _ hending]
    rfl
  | returned result =>
    cases result with
    | ok output =>
      rw [settle_of_ok _ _ _ _ _ _ hending]
      rfl
    | error e =>
      rw [settle_of_error _ _ _ _ _ _ hending]
      rfl

/-- Who is turned away goes on in the state that he was in. -/
theorem state_refused (e : CallError) (w : World) :
    (refused r c handling e w).world.state =
      (refused r c handling e w).record.resume w.state :=
  (w.state.revertTo_of_length_le (Nat.le_refl _)).symm

end Dispatched

theorem state_dispatch (s : Setting) (levels : Nat) (c : CallContext) (r : Request) (w : World) :
    (dispatch s levels c r w).world.state = (dispatch s levels c r w).record.resume w.state := by
  refine dispatch_induction (P := fun _ _ w d => d.world.state = d.record.resume w.state)
    ?tooDeep ?executed levels c r w
  case tooDeep =>
    intro c r w
    exact Dispatched.state_refused ..
  case executed =>
    intro levels _ c r w d hd
    cases hd with
    | unfunded => exact Dispatched.state_refused ..
    | overfull | handled => exact Dispatched.state_settle ..

/-- What holds of each call that is dispatched holds of each call in its tree. -/
theorem dispatch_eachCall {s : Setting} {R : CallRecord → Trace → Prop}
    (hR : ∀ levels c r w, R (dispatch s levels c r w).record (dispatch s levels c r w).body)
    (levels : Nat) (c : CallContext) (r : Request) (w : World) :
    (dispatch s levels c r w).EachCall R := by
  refine ⟨hR levels c r w, ?_⟩
  refine dispatch_induction (P := fun _ _ _ d => d.body.EachCall R) ?tooDeep ?executed levels c r w
  case tooDeep =>
    intro c r w
    trivial
  case executed =>
    intro levels ih c r w d hd
    cases hd with
    | unfunded => trivial
    | overfull =>
      rw [Dispatched.body_settle]
      trivial
    | handled hbalance hfund hhandled =>
      rw [Dispatched.body_settle]
      cases hhandled with
      | entered hactive hframe hdepth =>
        exact Program.eachCall_run (fun r w => ⟨hR levels _ r w, ih _ r w⟩) _ _ _
      | _ => trivial

/-- In frame `f` the call has run the routine that is active at its target, from world `w` on and
with `levels` levels of calls to go, and record and transcript are those of that run. -/
structure CallRecord.Ran (s : Setting) (r : CallRecord) (body : Trace) (f : Frame)
    (routine : Bytes → Program Bytes) (levels : Nat) (w : World) : Prop where
  active : s.active.get? r.request.target = some (.stateful routine)
  frame : r.request.frame? = some f
  found : r.found = w.state
  body : body = ((routine r.request.input).run
    (s.host levels (r.context.enter r.request.callType)) f r.request.gas w).trace
  left : r.left = ((routine r.request.input).run
    (s.host levels (r.context.enter r.request.callType)) f r.request.gas w).world.state
  ending : r.ending = ((routine r.request.input).run
    (s.host levels (r.context.enter r.request.callType)) f r.request.gas w).settled

/-- Only a routine has a frame; where there is none, nothing happens inside of the call. -/
structure CallRecord.Staged (s : Setting) (r : CallRecord) (body : Trace) : Prop where
  ran : ∀ f, r.handling = .entered f → ∃ routine levels w, r.Ran s body f routine levels w
  still : (∀ f, r.handling ≠ .entered f) → body = .done

theorem CallRecord.staged_of_frameless {s : Setting} {r : CallRecord}
    (h : ∀ f, r.handling ≠ .entered f) : r.Staged s .done :=
  ⟨fun f hframe => absurd hframe (h f), fun _ => rfl⟩

namespace Dispatched

variable {s : Setting} {levels : Nat} {c : CallContext} {r : Request} {found : State}
  {handling : Handling} {callee : Run Bytes}

theorem staged_settle_of_frameless (h : ∀ f, handling ≠ .entered f)
    (hdone : callee.trace = .done) (id : Nat) :
    (settle r c id found handling callee).record.Staged s
      (settle r c id found handling callee).body := by
  rw [body_settle, hdone]
  exact CallRecord.staged_of_frameless (by rwa [handling_settle])

theorem staged_settle {w : World} (h : r.Handled s levels c w handling callee) (id : Nat) :
    (settle r c id w.state handling callee).record.Staged s
      (settle r c id w.state handling callee).body := by
  cases h with
  | @entered routine f hactive hframe hdepth =>
    refine ⟨fun f' hentered => ?_, fun hnone => absurd (handling_settle ..) (hnone _)⟩
    rw [handling_settle] at hentered
    cases hentered
    refine ⟨routine, levels, w, ?_⟩
    constructor <;> simp [hactive, hframe]
  | codeless | underpaid | stateless | parentless | uncountable =>
    exact staged_settle_of_frameless (fun _ h => by cases h) rfl id

end Dispatched

theorem staged_dispatch (s : Setting) (levels : Nat) (c : CallContext) (r : Request)
    (w : World) :
    (dispatch s levels c r w).record.Staged s (dispatch s levels c r w).body := by
  refine dispatch_induction (P := fun _ _ _ d => d.record.Staged s d.body) ?tooDeep ?executed
    levels c r w
  case tooDeep =>
    intro c r w
    exact CallRecord.staged_of_frameless fun _ h => by cases h
  case executed =>
    intro levels _ c r w d hd
    cases hd with
    | unfunded => exact CallRecord.staged_of_frameless fun _ h => by cases h
    | overfull => exact Dispatched.staged_settle_of_frameless (fun _ h => by cases h) rfl _
    | handled hbalance hfund hhandled => exact Dispatched.staged_settle hhandled _

end PrecompileHost
