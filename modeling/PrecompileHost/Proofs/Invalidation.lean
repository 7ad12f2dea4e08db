import PrecompileHost.Proofs.Silence

/-!
Invalidated transactions. The reasons for which frames have declared a transaction invalid are read
off the transcript in order of execution, whatever became of the frames. An engine keeps the first
of them: it is set once, nothing that fails takes it back, and nothing but the end of a transaction
looks at it. In particular nothing is undone for it: whether a call is taken back is decided by what
the call returns, before the reason is looked at.
-/

namespace PrecompileHost

def Operation.reason? : Operation → Option String
  | .invalidate reason => some reason
  | .observe | .chain | .useGas _ | .read _ | .write _ | .log _ => none

/-- The reasons given in a frame and inside of its calls, in the order in which they were given. -/
def Trace.reasons : Trace → List String
  | .done => []
  | .performed o _ rest => o.reason?.toList ++ rest.reasons
  | .declined _ _ rest => rest.reasons
  | .called _ body rest => body.reasons ++ rest.reasons

/-- The first of the reasons is pending, unless one was before. -/
def World.Marked (before : World) (reasons : List String) (after : World) : Prop :=
  after.invalidation = before.invalidation.or reasons.head?

namespace World.Marked

variable {w w' w'' : World} {reasons later : List String}

theorem refl (w : World) : w.Marked [] w :=
  (Option.or_none).symm

theorem trans (h : w.Marked reasons w') (h' : w'.Marked later w'') :
    w.Marked (reasons ++ later) w'' := by
  unfold Marked at h h' ⊢
  rw [h', h, List.head?_append, Option.or_assoc]

end World.Marked

theorem Host.marked_perform (h : Host) (f : Frame) (gas : Gas) (w : World) (o : Operation) :
    w.Marked o.reason?.toList (h.perform f gas w o).2.2 := by
  cases o with
  | invalidate reason => rfl
  | useGas amount =>
    unfold perform
    dsimp only
    split <;> exact .refl w
  | write m =>
    unfold perform
    dsimp only
    split
    · exact .refl w
    · exact .refl w
  | observe | chain | read | log => exact .refl w

theorem Program.marked_run {α : Type} {h : Host} {f : Frame}
    (hdispatch : ∀ r (w : World), w.Marked (h.dispatch r w).body.reasons (h.dispatch r w).world)
    (p : Program α) (gas : Gas) (w : World) :
    w.Marked (p.run h f gas w).trace.reasons (p.run h f gas w).world := by
  refine run_induction (P := fun _ w run => w.Marked run.trace.reasons run.world) ?pure ?fail
    ?abort ?perform ?declined ?aborted ?returned p gas w
  case pure | fail | abort =>
    intro _ gas w
    exact .refl w
  case perform =>
    intro o gas w rest hrest
    exact (h.marked_perform f gas w o).trans hrest
  case declined =>
    intro call e gas w rest _ hrest
    exact hrest
  case aborted =>
    intro call m reserved gas w d _ hd _
    have hcall : w.Marked d.body.reasons d.world := hd ▸ hdispatch _ _
    exact hcall.trans (.refl _)
  case returned =>
    intro call outcome reserved gas w d rest _ hd _ hrest
    have hcall : w.Marked d.body.reasons d.world := hd ▸ hdispatch _ _
    exact hcall.trans hrest

@[simp] theorem Dispatched.invalidation_settle (r : Request) (c : CallContext) (id : Nat)
    (found : State) (handling : Handling) (callee : Run Bytes) :
    (settle r c id found handling callee).world.invalidation = callee.world.invalidation := by
  unfold settle
  split <;> rfl

theorem Dispatched.marked_settle (r : Request) (c : CallContext) (id : Nat) (found : State)
    (handling : Handling) {callee : Run Bytes} {w : World}
    (h : w.Marked callee.trace.reasons callee.world) :
    w.Marked (settle r c id found handling callee).body.reasons
      (settle r c id found handling callee).world := by
  unfold World.Marked
  rw [invalidation_settle, body_settle]
  exact h

theorem dispatch_marked (s : Setting) (levels : Nat) (c : CallContext) (r : Request) (w : World) :
    w.Marked (dispatch s levels c r w).body.reasons (dispatch s levels c r w).world := by
  refine dispatch_induction (P := fun _ _ w d => w.Marked d.body.reasons d.world) ?tooDeep
    ?executed levels c r w
  case tooDeep =>
    intro c r w
    exact .refl w
  case executed =>
    intro levels ih c r w d hd
    cases hd with
    | unfunded => exact .refl w
    | overfull => exact Dispatched.marked_settle _ _ _ _ _ (.refl w)
    | handled hbalance hfund hhandled =>
      refine Dispatched.marked_settle _ _ _ _ _ ?_
      cases hhandled with
      | entered hactive hframe hdepth =>
        exact Program.marked_run (fun r w => ih _ r w) _ _ { w with state := _ }
      | codeless | underpaid | stateless | parentless | uncountable => exact .refl w

theorem dispatch_record_pending (s : Setting) (levels : Nat) (c : CallContext) (r : Request)
    (w : World) (reason? : Option String) :
    (dispatch s levels c r (w.pending reason?)).record = (dispatch s levels c r w).record := by
  have hpending := dispatch_silenced s levels c r (w.pending reason?) none
  have hsame : (w.pending reason?).pending none = w.pending none := rfl
  rw [hsame, dispatch_silenced] at hpending
  exact (congrArg Dispatched.record hpending).symm

namespace Engine

variable (e : Engine) (origin target : Address) (input : Bytes) (gas : Gas) (value : Word)

/-- At the end of a transaction the first reason given in it is pending, if there was any. -/
theorem invalidation_call_transact :
    (e.transact origin target input gas value).call.world.invalidation =
      (e.transact origin target input gas value).call.body.reasons.head? := by
  rw [call_transact]
  exact dispatch_marked ..

theorem ending_transact_of_reason {reason : String} {outcome : Outcome}
    (hreturned :
      (e.transact origin target input gas value).call.record.ending = .returned outcome)
    (hreason : (e.transact origin target input gas value).call.body.reasons.head? = some reason) :
    (e.transact origin target input gas value).ending = .returned (.error reason) := by
  unfold Transaction.ending
  rw [invalidation_call_transact, hreason]
  simp only [hreturned]

theorem ending_transact_of_no_reason {outcome : Outcome}
    (hreturned :
      (e.transact origin target input gas value).call.record.ending = .returned outcome)
    (hnone : (e.transact origin target input gas value).call.body.reasons = []) :
    (e.transact origin target input gas value).ending = .returned (.ok outcome) := by
  unfold Transaction.ending
  rw [invalidation_call_transact, hnone]
  simp only [hreturned, List.head?_nil]

/-- A transaction whose call returns is invalid for the first reason that was given in it. -/
theorem ending_transact_eq_error_iff {outcome : Outcome}
    (hreturned :
      (e.transact origin target input gas value).call.record.ending = .returned outcome)
    (reason : String) :
    (e.transact origin target input gas value).ending = .returned (.error reason) ↔
      (e.transact origin target input gas value).call.body.reasons.head? = some reason := by
  cases hreasons : (e.transact origin target input gas value).call.body.reasons with
  | nil =>
    rw [e.ending_transact_of_no_reason origin target input gas value hreturned hreasons]
    exact iff_of_false nofun nofun
  | cons first later =>
    rw [e.ending_transact_of_reason origin target input gas value hreturned
      (congrArg List.head? hreasons), List.head?_cons]
    constructor
    · rintro ⟨⟩
      rfl
    · rintro ⟨⟩
      rfl

theorem invalidation_transact {outcome : Outcome}
    (hreturned :
      (e.transact origin target input gas value).call.record.ending = .returned outcome) :
    (e.transact origin target input gas value).engine.world.invalidation = none := by
  rw [call_transact] at hreturned
  unfold transact
  simp only [hreturned]

theorem record_call_transact :
    (e.transact origin target input gas value).call.record =
      ({ e with setting.origin := origin, context := {} }.call (.account origin) target input gas
        value).record := by
  rw [call_transact]
  exact dispatch_record_pending _ _ _ _ e.world none

/-- A transaction that returns is invalid if and only if some frame of its call tree has said so,
for the first reason that was given, whatever became of the frame that gave it; otherwise it has the
outcome of its call. What an engine was left with before, a pending reason included, is of no
consequence. Without invalidations, wherever programs are registered, the same calls are made, in
the same states and with the same results, and every other operation is answered alike. -/
theorem invalidation_sticky :
    ((∀ m, (e.transact origin target input gas value).ending ≠ .aborted m) →
      (∀ reason, (e.transact origin target input gas value).ending = .returned (.error reason) ↔
        (e.transact origin target input gas value).call.body.reasons.head? = some reason) ∧
      ((e.transact origin target input gas value).call.body.reasons = [] →
        ∃ outcome,
          ({ e with setting.origin := origin, context := {} }.call (.account origin) target input
            gas value).record.ending = .returned outcome ∧
          (e.transact origin target input gas value).ending = .returned (.ok outcome)) ∧
      (e.transact origin target input gas value).engine.world.invalidation = none) ∧
    (∀ context lastOrigin reason?,
      { e with
        context, setting.origin := lastOrigin, world.invalidation := reason? }.transact origin
          target input gas value = e.transact origin target input gas value) ∧
    ∀ reason?, (e.silenced reason?).reactivate = e.reactivate.silenced reason? ∧
      ∀ steps s, ∃ pending? called?,
        (e.silenced reason?).run steps = (e.run steps).silenced pending? ∧
          ((e.silenced reason?).run steps).made? s =
            ((e.run steps).made? s).map fun d => d.silenced called? := by
  refine ⟨fun hreturns => ?_, fun context lastOrigin reason? => rfl,
    fun reason? => ⟨e.reactivate_silenced reason?, fun steps s => ?_⟩⟩
  · cases hending : (e.transact origin target input gas value).call.record.ending with
    | aborted m =>
      refine absurd ?_ (hreturns m)
      unfold Transaction.ending
      simp only [hending]
    | returned outcome =>
      refine ⟨e.ending_transact_eq_error_iff origin target input gas value hending,
        fun hnone => ⟨outcome, ?_, ?_⟩,
        e.invalidation_transact origin target input gas value hending⟩
      · rw [← e.record_call_transact]
        exact hending
      · exact e.ending_transact_of_no_reason origin target input gas value hending hnone
  · obtain ⟨between?, hrun⟩ := e.run_silenced reason? steps
    obtain ⟨-, -, called?, hmade⟩ := (e.run steps).step_silenced between? s
    exact ⟨between?, called?, hrun, hrun ▸ hmade⟩

theorem ending_call_of_invalid {reason : String}
    (hinvalid : (e.transact origin target input gas value).ending = .returned (.error reason)) :
    ∃ outcome,
      (e.transact origin target input gas value).call.record.ending = .returned outcome := by
  unfold Transaction.ending at hinvalid
  cases hending : (e.transact origin target input gas value).call.record.ending with
  | aborted m =>
    rw [hending] at hinvalid
    cases hinvalid
  | returned outcome => exact ⟨outcome, rfl⟩

theorem ending_transact_silenced {outcome : Outcome}
    (hreturned :
      (e.transact origin target input gas value).call.record.ending = .returned outcome) :
    ((e.silenced none).transact origin target input gas value).ending =
      .returned (.ok outcome) := by
  unfold Transaction.ending
  rw [call_transact_silenced]
  simp only [Dispatched.silenced, World.pending, hreturned]

/-- An invalidation overrides what a transaction answers, not what its call has done: that stays
just as it would without the invalidation. So an invalid transaction has had no effect exactly if
its call has failed or its callee has left the accounts of before. -/
theorem invalid_transact_settled
    (hactive : e.setting.active.Only fun _ o => o.handlesSnapshots = false) {reason : String}
    (hinvalid : (e.transact origin target input gas value).ending = .returned (.error reason)) :
    ∃ outcome,
      ((e.silenced none).transact origin target input gas value).ending =
        .returned (.ok outcome) ∧
      (e.transact origin target input gas value).engine.world.state =
        ((e.silenced none).transact origin target input gas value).engine.world.state ∧
      (∀ output, outcome.result = .ok output →
        (e.transact origin target input gas value).engine.world.state.accounts =
          (e.transact origin target input gas value).call.record.left.accounts) ∧
      ((e.transact origin target input gas value).engine.world.state.accounts =
          e.world.state.accounts ↔
        (∃ error, outcome.result = .error error) ∨
          (e.transact origin target input gas value).call.record.left.accounts =
            e.world.state.accounts) := by
  obtain ⟨outcome, hending⟩ := e.ending_call_of_invalid origin target input gas value hinvalid
  have hatomic := atomic_of_made? (s := .transact origin target input gas value) hactive rfl
    hending
  have hstate : (e.transact origin target input gas value).engine.world.state =
      (e.transact origin target input gas value).call.world.state := by
    rw [state_transact, call_transact]
  refine ⟨outcome, e.ending_transact_silenced origin target input gas value hending, ?_, ?_, ?_⟩
  · rw [engine_transact_silenced]
    rfl
  · intro output hok
    rw [hstate, hatomic.kept output hok]
  · cases hresult : outcome.result with
    | error error =>
      rw [hstate, hatomic.state_of_error hresult]
      exact iff_of_true rfl (.inl ⟨error, rfl⟩)
    | ok output =>
      rw [hstate, hatomic.kept output hresult]
      exact (or_iff_right fun ⟨_, h⟩ => nomatch h).symm

end Engine

namespace Objection

/-- Objects, and goes on to fail. -/
def objector (_ : Bytes) : Program Bytes := do
  Program.invalidate "first"
  .fail .headerUnavailable

/-- Has another one object before it does so itself. -/
def chair (_ : Bytes) : Program Bytes := do
  discard <| Program.callOut { target := 0xb0, input := [], gas := 10, value := 0 }
  Program.invalidate "second"
  pure [1]

/-- An engine that is left read-only and with a reason pending. -/
def engine : Engine :=
  ((Engine.create {} (WordMap.ofList
    [(0xa0, .stateful chair), (0xb0, .stateful objector)])).withContext
      { depth := 7, readOnly := true }).invalidate "stale"

/-- The first objection counts, though its frame has failed. The next transaction does without. -/
theorem engine_invalidation_sticky :
    (engine.transact 0xc0 0xa0 [] 100 0).ending = .returned (.error "first") ∧
      ((engine.transact 0xc0 0xa0 [] 100 0).engine.transact 0xc0 0xa1 [] 100 0).ending =
        .returned (.ok ⟨.ok [], 100⟩) ∧
      ∃ called?, ((engine.silenced none).transact 0xc0 0xa0 [] 100 0).call =
        (engine.transact 0xc0 0xa0 [] 100 0).call.silenced called? := by
  obtain ⟨hfirst, -, hsilenced⟩ := Engine.invalidation_sticky engine 0xc0 0xa0 [] 100 0
  obtain ⟨hnext, -, -⟩ := Engine.invalidation_sticky
    (engine.transact 0xc0 0xa0 [] 100 0).engine 0xc0 0xa1 [] 100 0
  obtain ⟨hinvalid, -, -⟩ := hfirst fun m h => by cases h
  obtain ⟨-, hvalid, -⟩ := hnext fun m h => by cases h
  obtain ⟨outcome, hcall, hending⟩ := hvalid rfl
  cases hcall
  obtain ⟨-, called?, -, hmade⟩ := (hsilenced none).2 [] (.transact 0xc0 0xa0 [] 100 0)
  exact ⟨(hinvalid "first").mpr rfl, hending, called?, Option.some.inj hmade⟩

end Objection

namespace Sanction

/-- Takes note of a payment, and objects to it. -/
def collector (_ : Bytes) : Program Bytes := do
  Program.write (.setStorage 0xa0 1 1)
  Program.invalidate "sanctioned caller"
  pure [1]

def registered : Registry :=
  WordMap.ofList [(0xa0, .stateful collector)]

def engine : Engine :=
  Engine.create { accounts := (∅ : Accounts).setBalance 0xc0 10 } registered

theorem registered_only : registered.Only fun _ o => o.handlesSnapshots = false := by
  refine Registry.only_empty.insert fun _ => ⟨rfl, fun answer => ?_⟩
  cases answer with
  | none => trivial
  | some _ => exact ⟨rfl, fun _ => trivial⟩

theorem engine_invalid_transact_settled :
    (engine.transact 0xc0 0xa0 [] 100 5).ending = .returned (.error "sanctioned caller") ∧
      (engine.transact 0xc0 0xa0 [] 100 5).engine.world.state =
        ((engine.silenced none).transact 0xc0 0xa0 [] 100 5).engine.world.state := by
  have hinvalid : (engine.transact 0xc0 0xa0 [] 100 5).ending =
      .returned (.error "sanctioned caller") := rfl
  obtain ⟨outcome, -, hstate, -, -⟩ := Engine.invalid_transact_settled engine 0xc0 0xa0 [] 100 5
    (registered_only.activate _ _) hinvalid
  exact ⟨hinvalid, hstate⟩

/-- The payment stands, and so does the note of it. -/
theorem engine_keeps_invalid_payment :
    (engine.transact 0xc0 0xa0 [] 100 5).ending = .returned (.error "sanctioned caller") ∧
      (engine.transact 0xc0 0xa0 [] 100 5).engine.world.state.accounts.balance 0xc0 = 5 ∧
      (engine.transact 0xc0 0xa0 [] 100 5).engine.world.state.accounts.storage 0xa0 1 = 1 ∧
      (engine.transact 0xc0 0xa0 [] 100 5).engine.world.state.accounts ≠
        engine.world.state.accounts := by
  refine ⟨rfl, ?_, ?_, ?_⟩ <;> decide +kernel

end Sanction

end PrecompileHost
