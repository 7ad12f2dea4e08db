import PrecompileHost.Proofs.Session

/-!
Which calls answer for what has become of the accounts. An attribution is a relation between
accounts, the calls that stand and the accounts that these have led to, which further calls do not
disturb; the value that a call sends is put down to the call, and so is what its frame writes. To
know that whole call trees keep to an attribution it is enough to look at one frame of each active
routine that writes at all.
-/

namespace PrecompileHost

def Operation.isWrite : Operation → Bool
  | .write _ => true
  | .observe | .chain | .useGas _ | .read _ | .invalidate _ | .log _ => false

theorem Host.state_perform_of_not_write (h : Host) (frame : Frame) (gas : Gas) (w : World)
    {o : Operation} (ho : o.isWrite = false) :
    (h.perform frame gas w o).2.2.state = w.state := by
  cases o with
  | useGas amount =>
    simp only [perform]
    split <;> rfl
  | write m => cases ho
  | observe | chain | read | invalidate | log => rfl

variable {T : Accounts → List CallRecord → Accounts → Prop}

/-- How the frames of the routine at `a` answer for what they do. -/
inductive Answerable (s : Setting) (T : Accounts → List CallRecord → Accounts → Prop)
    (a : Address) (routine : Bytes → Program Bytes) : Prop
  /-- The routine writes nothing itself. -/
  | bystander (text : ∀ input, (routine input).Only fun o => o.isWrite = false)
  /-- The routine makes no calls, and its record answers for what it has written. -/
  | leaf (text : ∀ input, (routine input).Leaf fun o => o.handlesSnapshots = false)
      (success : ∀ (h : Host) frame input gas w output, h.setting = s →
        ((routine input).run h frame gas w).ending = .returned (.ok output) →
        ∀ r : CallRecord, r.request.target = a → r.request.input = input →
          r.handling = .entered frame → r.found = w.state →
            T w.state.accounts [r] ((routine input).run h frame gas w).world.state.accounts)

/-- `T` attributes what becomes of the accounts to the calls in a setting. -/
structure Setting.Attribution (s : Setting)
    (T : Accounts → List CallRecord → Accounts → Prop) : Prop where
  refl : ∀ as, T as [] as
  trans : ∀ {as bs cs calls calls'}, T as calls bs → T bs calls' cs → T as (calls ++ calls') cs
  mono : ∀ {as bs calls calls'}, T as calls bs → calls ⊆ calls' → T as calls' bs
  sent : ∀ {as bs} (r : CallRecord), r.request.callType = .call →
    as.transfer? r.request.caller.address r.request.target r.request.value = some bs → T as [r] bs
  routines : ∀ a routine, s.active.get? a = some (.stateful routine) → Answerable s T a routine

/-- If the call returns, the calls that stand then answer for the accounts. -/
def Dispatched.Attributed (T : Accounts → List CallRecord → Accounts → Prop) (before : Accounts)
    (d : Dispatched) : Prop :=
  ∀ outcome, d.record.ending = .returned outcome → T before d.standing d.world.state.accounts

/-- The same of the run of a routine. -/
def Run.Attributed {α : Type} (T : Accounts → List CallRecord → Accounts → Prop)
    (before : Accounts) (run : Run α) : Prop :=
  ∀ result, run.ending = .returned result → T before run.trace.standing run.world.state.accounts

/-- What a callee that succeeds answers for, its own record included, `found` being the state that
it was started in. -/
def Request.CalleeAttributed (T : Accounts → List CallRecord → Accounts → Prop) (found : State)
    (r : Request) (handling : Handling) (callee : Run Bytes) : Prop :=
  ∀ output, callee.ending = .returned (.ok output) →
    ∀ record : CallRecord, record.request = r → record.handling = handling →
      record.found = found →
        T found.accounts (callee.trace.standing ++ [record]) callee.world.state.accounts

namespace Setting.Attribution

variable {s : Setting}

theorem only (hT : s.Attribution T) : s.active.Only fun _ o => o.handlesSnapshots = false := by
  intro a routine hroutine input
  cases hT.routines a routine hroutine with
  | bystander text =>
    refine (text input).mono fun o ho => ?_
    cases o with
    | write m => cases ho
    | observe | chain | useGas | read | invalidate | log => rfl
  | leaf text success => exact (text input).only

/-- A routine that writes nothing itself is answered for by its nested calls. -/
theorem attributed_run (hT : s.Attribution T) {α : Type} {h : Host} {frame : Frame}
    (hdispatch : ∀ r w, (h.dispatch r w).Attributed T w.state.accounts) (p : Program α)
    (hp : p.Only fun o => o.isWrite = false) (gas : Gas) (w : World) :
    (p.run h frame gas w).Attributed T w.state.accounts := by
  have hown := hp.eachPerformed_run h frame gas w
  revert hown
  refine Program.run_induction (P := fun _ w run =>
    (run.trace.EachPerformed fun o _ => o.isWrite = false) →
      run.Attributed T w.state.accounts) ?pure ?fail ?abort ?perform ?declined ?aborted ?returned
    p gas w
  case pure | fail =>
    intro _ gas w _ result _
    exact hT.refl _
  case abort =>
    intro m gas w _ result hreturned
    cases hreturned
  case perform =>
    intro o gas w rest ih hown result hreturned
    have hrest := ih hown.2 result hreturned
    rw [h.state_perform_of_not_write frame gas w hown.1] at hrest
    exact hrest
  case declined =>
    intro call e gas w rest _ ih hown
    exact ih hown
  case aborted =>
    intro call m reserved gas w d _ _ _ _ result hreturned
    cases hreturned
  case returned =>
    intro call outcome reserved gas w d rest _ hd hending ih hown result hreturned
    have hcall : T w.state.accounts d.standing d.world.state.accounts := by
      subst hd
      exact hdispatch _ _ outcome hending
    exact hT.trans hcall (ih hown result hreturned)

theorem attributed_entered (hT : s.Attribution T) {r : Request}
    {routine : Bytes → Program Bytes}
    (hactive : s.active.get? r.target = some (.stateful routine)) {h : Host} (hs : h.setting = s)
    (hdispatch : ∀ r w, (h.dispatch r w).Attributed T w.state.accounts) (frame : Frame)
    (w : World) :
    r.CalleeAttributed T w.state (.entered frame) ((routine r.input).run h frame r.gas w) := by
  intro output hok record hrequest hhandling hfound
  cases hT.routines _ routine hactive with
  | bystander text =>
    have hrun := hT.attributed_run hdispatch _ (text r.input) r.gas w _ hok
    exact hT.mono hrun (List.subset_append_left _ _)
  | leaf text success =>
    obtain ⟨-, hnone⟩ := (text r.input).returns_run h frame r.gas w
    rw [Trace.standing_of_no_call hnone]
    exact success h frame _ _ _ output hs hok record (by rw [hrequest]) (by rw [hrequest])
      hhandling hfound

theorem attributed_handled (hT : s.Attribution T) {levels : Nat} {c : CallContext} {r : Request}
    {w : World} {handling : Handling} {callee : Run Bytes}
    (hdispatch : ∀ c r w, (dispatch s levels c r w).Attributed T w.state.accounts)
    (hhandled : r.Handled s levels c w handling callee) :
    r.CalleeAttributed T w.state handling callee := by
  cases hhandled with
  | entered hactive hframe hdepth =>
    exact hT.attributed_entered hactive rfl (fun r w => hdispatch _ r w) _ w
  | codeless | underpaid | stateless | parentless | uncountable =>
    intro output _ record _ _ _
    exact hT.mono (hT.refl _) (List.nil_subset _)

theorem funded (hT : s.Attribution T) {r : Request} {t found : State}
    (hfund : r.fund? t = some found) {record : CallRecord} (hrequest : record.request = r) :
    T t.accounts [record] found.accounts := by
  unfold Request.fund? at hfund
  split at hfund
  · rename_i htype
    obtain ⟨as, htransfer, rfl⟩ := Option.map_eq_some_iff.mp hfund
    subst hrequest
    exact hT.sent record htype htransfer
  all_goals
    cases hfund
    exact hT.mono (hT.refl _) (List.nil_subset _)

theorem attributed_settle (hT : s.Attribution T) {r : Request} {c : CallContext} {id : Nat}
    {before found : State} {handling : Handling} {callee : Run Bytes}
    (hatomic : ∀ outcome,
      (Dispatched.settle r c id found handling callee).record.ending = .returned outcome →
        (Dispatched.settle r c id found handling callee).Atomic before outcome)
    (hfunded : ∀ record : CallRecord, record.request = r →
      T before.accounts [record] found.accounts)
    (hcallee : r.CalleeAttributed T found handling callee) :
    (Dispatched.settle r c id found handling callee).Attributed T before.accounts := by
  intro outcome hreturned
  cases hending : callee.ending with
  | aborted m =>
    rw [Dispatched.settle_of_aborted _ _ _ _ _ _ hending] at hreturned
    cases hreturned
  | returned result =>
    cases result with
    | ok output =>
      have hanswers : ∀ record : CallRecord, record.request = r → record.handling = handling →
          record.found = found →
            T before.accounts (callee.trace.standing ++ [record])
              callee.world.state.accounts := by
        intro record hrequest hhandling hfound
        have hinside := hcallee output hending record hrequest hhandling hfound
        -- the record answers for the value before its callee and for the frame after it
        refine hT.mono (hT.trans (hfunded record hrequest) hinside) fun call hcall => ?_
        rcases List.mem_append.mp hcall with hfirst | hlater
        · exact List.mem_append_right _ hfirst
        · exact hlater
      rw [Dispatched.settle_of_ok _ _ _ _ _ _ hending]
      exact hanswers _ rfl rfl rfl
    | error e =>
      rw [Dispatched.settle_of_error _ _ _ _ _ _ hending] at hatomic ⊢
      rw [(hatomic _ rfl).undone e rfl]
      exact hT.refl _

/-- Every call tree in a setting keeps to its attributions. -/
theorem attributed_dispatch (hT : s.Attribution T) (levels : Nat) (c : CallContext) (r : Request)
    (w : World) : (dispatch s levels c r w).Attributed T w.state.accounts := by
  have hatomic : ∀ levels c r w outcome,
      (dispatch s levels c r w).record.ending = .returned outcome →
        (dispatch s levels c r w).Atomic w.state outcome := fun levels c r w outcome hreturned =>
    dispatch_atomic s levels c r w outcome hreturned (dispatch_settlesOwn hT.only levels c r w)
  -- as for chronicles, atomicity goes through the induction as a hypothesis
  refine dispatch_induction (P := fun _ _ w d =>
    (∀ outcome, d.record.ending = .returned outcome → d.Atomic w.state outcome) →
      d.Attributed T w.state.accounts) ?tooDeep ?executed levels c r w (hatomic levels c r w)
  case tooDeep =>
    intro c r w _ outcome _
    exact hT.refl _
  case executed =>
    intro levels ih c r w d hd hown
    cases hd with
    | unfunded =>
      intro outcome _
      exact hT.refl _
    | overfull =>
      refine hT.attributed_settle hown (fun record _ => ?_) fun output hok => by cases hok
      exact hT.mono (hT.refl _) (List.nil_subset _)
    | handled hbalance hfund hhandled =>
      refine hT.attributed_settle hown (fun record hrequest => hT.funded hfund hrequest) ?_
      exact hT.attributed_handled (fun c r w => ih c r w (hatomic _ c r w)) hhandled

end Setting.Attribution

theorem Engine.attributed_of_made? {e : Engine}
    (hT : ∀ setting : Setting, setting.active = e.setting.active → setting.Attribution T)
    {s : Engine.Step} {d : Dispatched} (h : e.made? s = some d) :
    d.Attributed T e.world.state.accounts := by
  obtain ⟨-, -, setting, levels, c, r, w, hactive, -, hstate, rfl⟩ := dispatch_of_made? h
  rw [← hstate]
  exact (hT setting hactive).attributed_dispatch levels c r w

end PrecompileHost
