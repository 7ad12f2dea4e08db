import PrecompileHost.Proofs.Session

/-!
What each call finds. A call is made at a moment of its tree, when some calls stand; if a relation
tells what calls that stand have led to, it tells of the accounts that the call finds. So it is
known in the middle of a tree, and not only at its end, what has been done so far.
-/

namespace PrecompileHost

/-- Each call made by the frame or inside of its calls is as `P` says, which is told the calls that
stand when it is made; those in `before` stand already when the frame starts. -/
def Trace.EachCallAfter (P : List CallRecord → CallRecord → Prop) : List CallRecord → Trace → Prop
  | _, .done => True
  | before, .performed _ _ rest => rest.EachCallAfter P before
  | before, .declined _ _ rest => rest.EachCallAfter P before
  | before, .called call body rest =>
    (P before call ∧ body.EachCallAfter P before) ∧
      rest.EachCallAfter P (before ++ call.standing body.standing)

/-- The same of a call and those inside of it. -/
def Dispatched.EachCallAfter (d : Dispatched) (P : List CallRecord → CallRecord → Prop)
    (before : List CallRecord) : Prop :=
  P before d.record ∧ d.body.EachCallAfter P before

namespace Trace

variable {P Q : List CallRecord → CallRecord → Prop} {before : List CallRecord}

theorem eachCallAfter_of_no_call {t : Trace} (h : t.EachCall fun _ _ => False) :
    t.EachCallAfter P before := by
  induction t with
  | done => trivial
  | performed _ _ rest ih | declined _ _ rest ih => exact ih h
  | called => exact h.1.1.elim

/-- What is known of each call by itself may be used together with what is known of its moment. -/
theorem EachCallAfter.combine {R : CallRecord → Trace → Prop}
    (hQ : ∀ calls call body, R call body → P calls call → Q calls call) {t : Trace}
    (hR : t.EachCall R) (hP : t.EachCallAfter P before) : t.EachCallAfter Q before := by
  induction t generalizing before with
  | done => trivial
  | performed _ _ rest ih | declined _ _ rest ih => exact ih hR hP
  | called call body rest ihBody ihRest =>
    exact ⟨⟨hQ _ _ body hR.1.1 hP.1.1, ihBody hR.1.2 hP.1.2⟩, ihRest hR.2 hP.2⟩

end Trace

theorem Dispatched.EachCallAfter.combine {P Q : List CallRecord → CallRecord → Prop}
    {R : CallRecord → Trace → Prop}
    (hQ : ∀ calls call body, R call body → P calls call → Q calls call) {d : Dispatched}
    {before : List CallRecord} (hR : d.EachCall R) (hP : d.EachCallAfter P before) :
    d.EachCallAfter Q before :=
  ⟨hQ _ _ d.body hR.1 hP.1, Trace.EachCallAfter.combine hQ hR.2 hP.2⟩

variable {T : Accounts → List CallRecord → Accounts → Prop} {start : Accounts}

/-- The calls that stand have led from `start` to the accounts that the call finds. -/
def CallRecord.Finds (T : Accounts → List CallRecord → Accounts → Prop) (start : Accounts)
    (calls : List CallRecord) (r : CallRecord) : Prop :=
  T start calls r.found.accounts

theorem Dispatched.finds_settle {r : Request} {c : CallContext} {id : Nat} {found : State}
    {handling : Handling} {callee : Run Bytes} {before : List CallRecord}
    (hfound : T start before found.accounts)
    (hcallee : callee.trace.EachCallAfter (CallRecord.Finds T start) before) :
    (settle r c id found handling callee).EachCallAfter (CallRecord.Finds T start) before := by
  rw [EachCallAfter, body_settle]
  refine ⟨?_, hcallee⟩
  rw [CallRecord.Finds, found_settle]
  exact hfound

namespace Setting.Chronicle

variable {s : Setting}

theorem before (hT : s.Chronicle T) {as bs cs : Accounts} {calls : List CallRecord}
    (hcalls : T as calls bs) (h : T bs [] cs) : T as calls cs := by
  have htold := hT.trans hcalls h
  rwa [List.append_nil] at htold

theorem finds_run (hT : s.Chronicle T) {α : Type} {h : Host} {frame : Frame}
    (htold : ∀ r w, (h.dispatch r w).Told T w.state.accounts)
    (hfinds : ∀ r (w : World) before, T start before w.state.accounts →
      (h.dispatch r w).EachCallAfter (CallRecord.Finds T start) before)
    (p : Program α) (hp : p.Only (Operation.Unnoticed T)) (gas : Gas) (w : World)
    (before : List CallRecord) (hbefore : T start before w.state.accounts) :
    (p.run h frame gas w).trace.EachCallAfter (CallRecord.Finds T start) before := by
  have hown := hp.eachPerformed_run h frame gas w
  revert hown before
  refine Program.run_induction (P := fun _ w run => ∀ before, T start before w.state.accounts →
    (run.trace.EachPerformed fun o _ => o.Unnoticed T) →
      run.trace.EachCallAfter (CallRecord.Finds T start) before) ?pure ?fail ?abort ?perform
    ?declined ?aborted ?returned p gas w
  case pure | fail | abort =>
    intros
    trivial
  case perform =>
    intro o gas w rest ih before hbefore hown
    exact ih before (hT.before hbefore (hT.perform h frame gas w hown.1)) hown.2
  case declined =>
    intro call e gas w rest _ ih before hbefore hown
    exact ih before hbefore hown
  case aborted =>
    intro call m reserved gas w d _ hd _ before hbefore _
    subst hd
    exact ⟨hfinds _ w before hbefore, trivial⟩
  case returned =>
    intro call outcome reserved gas w d rest _ hd _ ih before hbefore hown
    subst hd
    -- what stands of the call is nothing if it has failed, so both outcomes go on from here alike
    exact ⟨hfinds _ w before hbefore, ih _ (hT.trans hbefore (htold _ w).ended) hown⟩

theorem finds_handled (hT : s.Chronicle T) {levels : Nat} {c : CallContext} {r : Request}
    {w : World} {handling : Handling} {callee : Run Bytes}
    (hfinds : ∀ c r (w : World) before, T start before w.state.accounts →
      (dispatch s levels c r w).EachCallAfter (CallRecord.Finds T start) before)
    (hhandled : r.Handled s levels c w handling callee) {before : List CallRecord}
    (hbefore : T start before w.state.accounts) :
    callee.trace.EachCallAfter (CallRecord.Finds T start) before := by
  cases hhandled with
  | @entered routine frame hactive hframe hdepth =>
    cases hT.routines _ routine hactive with
    | unnoticed text record =>
      exact hT.finds_run (fun r w => hT.told_dispatch levels _ r w) (hfinds _) _ (text _) _ _
        before hbefore
    | leaf text success =>
      exact Trace.eachCallAfter_of_no_call ((text _).returns_run _ _ _ _).2
  | codeless | underpaid | stateless | parentless | uncountable => trivial

/-- In every call tree each call finds what the calls have led to that stand when it is made. -/
theorem finds_dispatch (hT : s.Chronicle T) (levels : Nat) (c : CallContext) (r : Request)
    (w : World) (before : List CallRecord) (hbefore : T start before w.state.accounts) :
    (dispatch s levels c r w).EachCallAfter (CallRecord.Finds T start) before := by
  revert hbefore
  refine dispatch_induction (P := fun _ _ w d => ∀ before, T start before w.state.accounts →
    d.EachCallAfter (CallRecord.Finds T start) before) ?tooDeep ?executed levels c r w before
  case tooDeep =>
    intro c r w before hbefore
    exact ⟨hbefore, trivial⟩
  case executed =>
    intro levels ih c r w d hd before hbefore
    cases hd with
    | unfunded => exact ⟨hbefore, trivial⟩
    | overfull => exact Dispatched.finds_settle hbefore trivial
    | @handled _ found hfund handling callee hhandled =>
      -- the callee starts from the accounts that the value has reached
      have hfound : T start before found.accounts :=
        hT.before hbefore (hT.fund (t := w.state.snapshot.2) hfund)
      exact Dispatched.finds_settle hfound (hT.finds_handled ih hhandled hfound)

end Setting.Chronicle

namespace Engine

variable {e : Engine}

@[simp] theorem active_run (e : Engine) (steps : List Step) :
    (e.run steps).setting.active = e.setting.active := by
  induction steps generalizing e with
  | nil => rfl
  | cons s steps ih => rw [run, ih, active_step]

theorem told_run (hT : ∀ setting : Setting, setting.active = e.setting.active →
      setting.Chronicle T) (steps : List Step) :
    T e.world.state.accounts ((e.standing steps).map (·.2))
      (e.run steps).world.state.accounts := by
  induction steps generalizing e with
  | nil => exact (hT e.setting rfl).refl _
  | cons s steps ih =>
    have hrest := ih (e := e.step s) fun setting hactive => hT setting (by simpa using hactive)
    rw [calls_standing_cons]
    refine (hT e.setting rfl).trans ?_ hrest
    cases hmade : e.made? s with
    | none =>
      rw [stands, hmade]
      cases s with
      | call | transact => cases hmade
      | enterBlock | enterContext => exact (hT e.setting rfl).refl _
    | some d =>
      obtain ⟨-, hstate, -⟩ := dispatch_of_made? hmade
      rw [stands, hmade, hstate]
      exact (told_of_made? (fun setting hactive _ => hT setting hactive) hmade).ended

theorem finds_of_made? (hT : ∀ setting : Setting, setting.active = e.setting.active →
      setting.block = e.setting.block → setting.Chronicle T) {before : List CallRecord}
    (hbefore : T start before e.world.state.accounts) {s : Step} {d : Dispatched}
    (h : e.made? s = some d) : d.EachCallAfter (CallRecord.Finds T start) before := by
  obtain ⟨-, -, setting, levels, c, r, w, hactive, hblock, hstate, rfl⟩ := dispatch_of_made? h
  rw [← hstate] at hbefore
  exact (hT setting hactive hblock).finds_dispatch levels c r w before hbefore

end Engine

end PrecompileHost
