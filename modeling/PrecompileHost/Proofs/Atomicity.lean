import PrecompileHost.Proofs.Transcript

/-!
Calls are atomic, and leave the snapshots as they found them. A call that returns has either kept
what its callee left or undone everything since its own snapshot, and the snapshots are those of
before the call, whatever the frames inside have put aside, released or gone back to. All that is
asked of the frames is to leave alone the snapshots that were taken before their routines started.
-/

namespace PrecompileHost

/-- The snapshot that a write releases or goes back to. -/
def Mutation.settles? : Mutation → Option Nat
  | .revertTo id | .commit id => some id
  | _ => none

/-- The snapshot that an operation has released or gone back to, which it cannot do where state is
read-only. -/
def Operation.settles? : (o : Operation) → o.Answer → Option Nat
  | .write m, some _ => m.settles?
  | _, _ => none

/-- The frame of the call settles no snapshot that was live when its routine started. -/
def CallRecord.SettlesOwn (r : CallRecord) (body : Trace) : Prop :=
  body.EachPerformed fun o answer =>
    ∀ id ∈ o.settles? answer, r.found.snapshots.length ≤ id

instance (r : CallRecord) (body : Trace) : Decidable (r.SettlesOwn body) :=
  inferInstanceAs (Decidable (body.EachPerformed _))

/-- A call made in state `before` that returned `outcome`, and did so atomically. -/
structure Dispatched.Atomic (d : Dispatched) (before : State) (outcome : Outcome) : Prop where
  snapshots : d.world.state.snapshots = before.snapshots
  undone : ∀ e, outcome.result = .error e → d.world.state.accounts = before.accounts
  kept : ∀ output, outcome.result = .ok output →
    d.world.state.accounts = d.record.left.accounts

/-- The call `r`, made in world `w` with `levels` levels of calls to go, has come to `d`: if it has
succeeded, the accounts are those that its callee has left, which was run on top of the call's own
snapshot with the value moved. -/
def Dispatched.Keeps (d : Dispatched) (s : Setting) (levels : Nat) (c : CallContext) (r : Request)
    (w : World) (outcome : Outcome) : Prop :=
  ∀ output, outcome.result = .ok output → ∃ found inner callee,
    levels = inner + 1 ∧ r.made.fund? w.state.snapshot.2 = some found ∧
      r.made.Handled s inner c { w with state := found } d.record.handling callee ∧
      callee.ending = .returned (.ok output) ∧ d.record.left = callee.world.state ∧
      d.world.state.accounts = callee.world.state.accounts

theorem Dispatched.Atomic.state_of_error {d : Dispatched} {before : State} {outcome : Outcome}
    (h : d.Atomic before outcome) {e : CallError} (herror : outcome.result = .error e) :
    d.world.state = before :=
  congr (congrArg State.mk (h.undone e herror)) h.snapshots

/-! ### Snapshots that stay below -/

variable {below : List Accounts}

theorem Mutation.prefix_apply (m : Mutation) {t : State} (hbelow : below <+: t.snapshots)
    (hown : ∀ id ∈ m.settles?, below.length ≤ id) :
    below <+: (m.apply t).2.snapshots := by
  cases m with
  | createAccount | setBalance | setNonce | setStorage => exact hbelow
  | credit a amount =>
    change below <+: (perform? t (t.accounts.credit? a amount)).2.snapshots
    cases t.accounts.credit? a amount <;> exact hbelow
  | debit a amount =>
    change below <+: (perform? t (t.accounts.debit? a amount)).2.snapshots
    cases t.accounts.debit? a amount <;> exact hbelow
  | snapshot => exact hbelow.trans (List.prefix_append _ _)
  | revertTo id =>
    change below <+: (t.revertTo id).snapshots
    unfold State.revertTo
    split
    · exact List.prefix_take_iff.mpr ⟨hbelow, hown id rfl⟩
    · exact hbelow
  | commit id => exact List.prefix_take_iff.mpr ⟨hbelow, hown id rfl⟩

theorem Host.prefix_perform {h : Host} {frame : Frame} {gas : Gas} {w : World} (o : Operation)
    (hbelow : below <+: w.state.snapshots)
    (hown : ∀ id ∈ o.settles? (h.perform frame gas w o).1, below.length ≤ id) :
    below <+: (h.perform frame gas w o).2.2.state.snapshots := by
  by_cases hro : h.context.readOnly = true
  · rw [h.state_perform_of_readOnly frame gas w o hro]
    exact hbelow
  · cases o with
    | useGas amount =>
      simp only [perform]
      split <;> exact hbelow
    | write m =>
      simp only [perform, if_neg hro] at hown ⊢
      exact m.prefix_apply hbelow hown
    | observe | chain | read | invalidate | log => exact hbelow

/-- A routine whose nested calls are atomic leaves the snapshots below its own where they are. -/
theorem Program.prefix_run {α : Type} {h : Host} {frame : Frame}
    (hdispatch : ∀ r w outcome, (h.dispatch r w).record.ending = .returned outcome →
      (h.dispatch r w).EachCall CallRecord.SettlesOwn →
        (h.dispatch r w).Atomic w.state outcome)
    (p : Program α) (gas : Gas) (w : World) :
    (p.run h frame gas w).trace.EachPerformed (fun o answer =>
      ∀ id ∈ o.settles? answer, below.length ≤ id) →
    (p.run h frame gas w).trace.EachCall CallRecord.SettlesOwn →
    below <+: w.state.snapshots → ∀ result, (p.run h frame gas w).ending = .returned result →
      below <+: (p.run h frame gas w).world.state.snapshots := by
  refine run_induction (P := fun _ w run =>
    run.trace.EachPerformed (fun o answer =>
      ∀ id ∈ o.settles? answer, below.length ≤ id) →
    run.trace.EachCall CallRecord.SettlesOwn →
    below <+: w.state.snapshots → ∀ result, run.ending = .returned result →
      below <+: run.world.state.snapshots) ?pure ?fail ?abort ?perform ?declined ?aborted
    ?returned p gas w
  case pure =>
    intro a gas w _ _ hbelow _ _
    exact hbelow
  case fail =>
    intro e gas w _ _ hbelow _ _
    exact hbelow
  case abort =>
    intro m gas w _ _ _ result hreturned
    cases hreturned
  case perform =>
    intro o gas w rest ih hown hcalls hbelow
    exact ih hown.2 hcalls (Host.prefix_perform o hbelow hown.1)
  case declined =>
    intro call e gas w rest _ ih
    exact ih
  case aborted =>
    intro call m reserved gas w d _ _ _ _ _ _ result hreturned
    cases hreturned
  case returned =>
    intro call outcome reserved gas w d rest _ hd hending ih hown hcalls hbelow
    have hatomic : d.Atomic w.state outcome := by
      subst hd
      exact hdispatch _ _ _ hending hcalls.1
    -- the nested call has put the snapshots back, so those below are still where they were
    refine ih hown hcalls.2 ?_
    rw [hatomic.snapshots]
    exact hbelow

/-! ### Calls -/

theorem Dispatched.atomic_settle {r : Request} {c : CallContext} {before found : State}
    {handling : Handling} {callee : Run Bytes} {outcome : Outcome}
    (hkept : ∀ result, callee.ending = .returned result →
      before.snapshots ++ [before.accounts] <+: callee.world.state.snapshots)
    (hreturned : (settle r c before.snapshots.length found handling callee).record.ending =
      .returned outcome) :
    (settle r c before.snapshots.length found handling callee).Atomic before outcome := by
  cases hending : callee.ending with
  | aborted m =>
    rw [settle_of_aborted _ _ _ _ _ _ hending] at hreturned
    cases hreturned
  | returned result =>
    obtain ⟨later, hlater⟩ := hkept result hending
    have hlive : callee.world.state.snapshots = before.snapshots ++ before.accounts :: later := by
      rw [← hlater, List.append_assoc, List.singleton_append]
    cases result with
    | error e =>
      rw [settle_of_error _ _ _ _ _ _ hending] at hreturned ⊢
      cases hreturned
      have hback : callee.world.state.revertTo before.snapshots.length = before :=
        before.revertTo_eq_of_snapshots hlive
      exact ⟨congrArg State.snapshots hback, fun _ _ => congrArg State.accounts hback,
        fun _ h => nomatch h⟩
    | ok output =>
      rw [settle_of_ok _ _ _ _ _ _ hending] at hreturned ⊢
      cases hreturned
      have hreleased : callee.world.state.commit before.snapshots.length =
          { before with accounts := callee.world.state.accounts } :=
        before.commit_eq_of_snapshots hlive
      refine ⟨?_, fun _ h => (nomatch h), fun _ _ => rfl⟩
      change (callee.world.state.commit before.snapshots.length).snapshots = before.snapshots
      rw [hreleased]

theorem dispatch_atomic (s : Setting) (levels : Nat) (c : CallContext) (r : Request) (w : World) :
    ∀ outcome, (dispatch s levels c r w).record.ending = .returned outcome →
      (dispatch s levels c r w).EachCall CallRecord.SettlesOwn →
        (dispatch s levels c r w).Atomic w.state outcome := by
  refine dispatch_induction (P := fun _ _ w d => ∀ outcome, d.record.ending = .returned outcome →
    d.EachCall CallRecord.SettlesOwn → d.Atomic w.state outcome) ?tooDeep ?executed levels c r w
  case tooDeep =>
    intro c r w outcome hreturned _
    cases hreturned
    exact ⟨rfl, fun _ _ => rfl, fun _ _ => rfl⟩
  case executed =>
    intro levels ih c r w d hd outcome hreturned hown
    cases hd with
    | unfunded =>
      cases hreturned
      exact ⟨rfl, fun _ _ => rfl, fun _ _ => rfl⟩
    | overfull => exact Dispatched.atomic_settle (fun _ _ => List.prefix_refl _) hreturned
    | @handled _ found hfund handling callee hhandled =>
      refine Dispatched.atomic_settle (fun result hcallee => ?_) hreturned
      -- the callee starts on top of the call's own snapshot, whatever moving the value has done
      rw [← State.snapshots_snapshot, ← Request.snapshots_of_fund? hfund]
      cases hhandled with
      | entered hactive hframe hdepth =>
        obtain ⟨hframeOwn, hcalls⟩ := hown
        rw [Dispatched.body_settle] at hframeOwn hcalls
        rw [CallRecord.SettlesOwn, Dispatched.found_settle] at hframeOwn
        exact Program.prefix_run (fun r w => ih _ r w) _ _ _ hframeOwn hcalls
          (List.prefix_refl _) result hcallee
      | _ => exact List.prefix_refl _

/-- Only a callee that succeeds makes a success of its call. -/
theorem Dispatched.ok_of_settle {r : Request} {c : CallContext} {id : Nat} {found : State}
    {handling : Handling} {callee : Run Bytes} {outcome : Outcome} {output : Bytes}
    (hreturned : (settle r c id found handling callee).record.ending = .returned outcome)
    (hok : outcome.result = .ok output) : callee.ending = .returned (.ok output) := by
  cases hending : callee.ending with
  | aborted m =>
    rw [settle_of_aborted _ _ _ _ _ _ hending] at hreturned
    cases hreturned
  | returned result =>
    cases result with
    | error e =>
      rw [settle_of_error _ _ _ _ _ _ hending] at hreturned
      cases hreturned
      cases hok
    | ok output' =>
      rw [settle_of_ok _ _ _ _ _ _ hending] at hreturned
      cases hreturned
      cases hok
      rfl

theorem Request.Executed.keeps {s : Setting} {inner : Nat} {c : CallContext} {r : Request}
    {w : World} {d : Dispatched} {outcome : Outcome} (h : r.Executed s inner c w d)
    (hreturned : d.record.ending = .returned outcome) :
    d.Keeps s (inner + 1) c r w outcome := by
  intro output hok
  cases h with
  | unfunded | overfull =>
    cases hreturned
    cases hok
  | @handled _ found hfund handling callee hhandled =>
    have hcallee := Dispatched.ok_of_settle hreturned hok
    rw [Dispatched.settle_of_ok _ _ _ _ _ _ hcallee]
    -- releasing the call's snapshot touches no account
    exact ⟨found, inner, callee, rfl, hfund, hhandled, hcallee, rfl, rfl⟩

theorem keeps_dispatch (s : Setting) (levels : Nat) (c : CallContext) (r : Request) (w : World)
    {outcome : Outcome} (hreturned : (dispatch s levels c r w).record.ending = .returned outcome) :
    (dispatch s levels c r w).Keeps s levels c r w outcome := by
  cases levels with
  | zero =>
    intro output hok
    cases hreturned
    cases hok
  | succ inner => exact (r.executed_execute s inner c w).keeps hreturned

/-- What an engine's calls of every type, its transactions and the nested calls of its frames have
in common: one that returns leaves the snapshots as they were, one that fails leaves the accounts
as they were, and one that succeeds leaves the accounts as the run of its callee has left them. -/
theorem Engine.calls_atomic (e : Engine) :
    (∀ r outcome, (e.dispatch r).record.ending = .returned outcome →
      (e.dispatch r).EachCall CallRecord.SettlesOwn →
        (e.dispatch r).Atomic e.world.state outcome ∧
          (e.dispatch r).Keeps e.setting (e.setting.levels e.context.depth) e.context r e.world
            outcome) ∧
    (∀ origin target input gas value outcome,
      (e.transact origin target input gas value).call.record.ending = .returned outcome →
      (e.transact origin target input gas value).call.EachCall CallRecord.SettlesOwn →
        (e.transact origin target input gas value).call.Atomic e.world.state outcome ∧
          (e.transact origin target input gas value).call.Keeps
            (e.beginTransaction origin).setting (e.setting.levels 0) {}
            { callType := .call, caller := .account origin, target, input, gas, value }
            (e.beginTransaction origin).world outcome ∧
          (e.transact origin target input gas value).engine.world.state =
            (e.transact origin target input gas value).call.world.state) ∧
    ∀ levels c frame gas w call result left d,
      (e.setting.host levels c).attempt frame gas w call = .returned result left d →
      d.EachCall CallRecord.SettlesOwn →
        ∃ outcome, d.record.ending = .returned outcome ∧ outcome.result = result ∧
          d.Atomic w.state outcome ∧
          ∃ reserved, (e.setting.host levels c).reserve gas call = .ok reserved ∧
            d.Keeps e.setting levels c (call.request frame reserved) w outcome := by
  refine ⟨fun r outcome hreturned hown => ?_, ?_, ?_⟩
  · exact ⟨dispatch_atomic _ _ _ r _ outcome hreturned hown, keeps_dispatch _ _ _ r _ hreturned⟩
  · intro origin target input gas value outcome hreturned hown
    rw [call_transact] at hreturned hown ⊢
    exact ⟨dispatch_atomic _ _ _ _ _ outcome hreturned hown, keeps_dispatch _ _ _ _ _ hreturned,
      e.state_transact ..⟩
  · intro levels c frame gas w call result left d hattempt hown
    obtain ⟨reserved, outcome, hreserve, rfl, hending, rfl, -⟩ :=
      Host.attempt_eq_returned hattempt
    exact ⟨outcome, hending, rfl, dispatch_atomic _ _ _ _ _ outcome hending hown, reserved,
      hreserve, keeps_dispatch _ _ _ _ _ hending⟩

namespace Spendthrift

/-- Writes, releases a snapshot of its own and leaves another behind, pays for a nested call that
writes and succeeds, and then fails. -/
def spendthrift (_ : Bytes) : Program Bytes := do
  let id ← Program.write .snapshot
  Program.write (.setStorage 0xa0 1 7)
  Program.write (.commit id)
  discard <| Program.write .snapshot
  discard <| Program.callOut { target := 0xb0, input := [], gas := 100, value := 3 }
  .fail (.reverted [1])

def bookkeeper (_ : Bytes) : Program Bytes := do
  Program.write (.setNonce 0xb0 9)
  pure [2]

/-- An engine over a state that holds a snapshot already. -/
def engine : Engine :=
  Engine.create { accounts := (∅ : Accounts).setBalance 0xc0 10, snapshots := [∅] }
    (WordMap.ofList [(0xa0, .stateful spendthrift), (0xb0, .stateful bookkeeper)])

def request : Request :=
  { callType := .call, caller := .account 0xc0, target := 0xa0, input := [], gas := 1000,
    value := 5 }

/-- The frame that `request` opens. -/
def frame : Frame :=
  { contract := { caller := 0xc0, address := 0xa0, value := 5, gas := 1000 }
    callType := .call
    rawCaller := 0xc0
    rawSelf := 0xa0 }

/-- The world in which the frame makes its nested call. -/
def paid : World :=
  { state := { accounts := (∅ : Accounts).setBalance 0xa0 5, snapshots := [∅, ∅, ∅] } }

def payment : NestedCall :=
  { target := 0xb0, input := [], gas := 100, value := 3 }

/-- A call of the other precompile alone, which succeeds. -/
def success : Request :=
  { callType := .call, caller := .account 0xc0, target := 0xb0, input := [], gas := 100,
    value := 3 }

/-- The failed call has undone all of it, as a transaction too, although the nested call within it
had been kept by then. A success on its own keeps what it has moved and written. -/
theorem engine_calls_atomic :
    ((engine.dispatch request).record.ending = .returned ⟨.error (.reverted [1]), 1000⟩ ∧
      (engine.dispatch request).EachCall CallRecord.SettlesOwn ∧
      (engine.dispatch request).Atomic engine.world.state ⟨.error (.reverted [1]), 1000⟩) ∧
    (engine.transact 0xc0 0xa0 [] 1000 5).call.Atomic engine.world.state
      ⟨.error (.reverted [1]), 1000⟩ ∧
    (∃ outcome, outcome.result = .ok [2] ∧
      ((engine.setting.host 3 ⟨1, false⟩).dispatch (payment.request frame 900) paid).Atomic
        paid.state outcome ∧
      ∃ reserved,
        ((engine.setting.host 3 ⟨1, false⟩).dispatch (payment.request frame 900) paid).Keeps
          engine.setting 3 ⟨1, false⟩ (payment.request frame reserved) paid outcome) ∧
    (engine.dispatch success).Atomic engine.world.state ⟨.ok [2], 100⟩ ∧
    (engine.dispatch success).Keeps engine.setting 1025 {} success engine.world ⟨.ok [2], 100⟩ ∧
    (engine.dispatch success).world.state =
      { accounts := (((∅ : Accounts).setBalance 0xc0 7).setBalance 0xb0 3).setNonce 0xb0 9
        snapshots := [∅] } := by
  obtain ⟨hdispatch, htransact, hattempt⟩ := Engine.calls_atomic engine
  have hnested : (engine.setting.host 3 ⟨1, false⟩).attempt frame 1000 paid payment =
      .returned (.ok [2]) 1000
        ((engine.setting.host 3 ⟨1, false⟩).dispatch (payment.request frame 900) paid) := rfl
  obtain ⟨outcome, -, hresult, hatomic, reserved, -, hkeeps⟩ :=
    hattempt _ _ _ _ _ _ _ _ _ hnested (by decide +kernel)
  obtain ⟨hsuccess, hkept⟩ := hdispatch success ⟨.ok [2], 100⟩ rfl (by decide +kernel)
  exact ⟨⟨rfl, by decide +kernel, (hdispatch _ _ rfl (by decide +kernel)).1⟩,
    (htransact _ _ _ _ _ _ rfl (by decide +kernel)).1,
    ⟨outcome, hresult, hatomic, reserved, hkeeps⟩, hsuccess, hkept, by decide +kernel⟩

end Spendthrift

end PrecompileHost
