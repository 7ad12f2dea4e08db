import PrecompileHost.Proofs.Lineage
import PrecompileHost.Proofs.Session

/-!
What every write keeps. The dispatcher handles a state by the same writes as the routines do, so a
property that each write keeps holds at every moment of every call, whichever precompiles are
active, whatever they do with snapshots by hand, and however the call ends.
-/

namespace PrecompileHost

/-- No write ends the property. -/
def Mutation.Keep (P : State → Prop) : Prop :=
  ∀ (m : Mutation) (t : State), P t → P (m.apply t).2

/-- `P` holds at each moment of a frame that starts in the given state, moments inside of its calls
included. -/
def Trace.Throughout (P : State → Prop) : State → Trace → Prop
  | t, .done => P t
  | t, .performed o answer rest => P t ∧ rest.Throughout P (o.next answer t)
  | t, .declined _ _ rest => rest.Throughout P t
  | t, .called call body rest =>
    P t ∧ body.Throughout P call.found ∧ rest.Throughout P (call.resume t)

/-- `P` holds before a call, at each moment of it and after it. -/
structure Dispatched.Throughout (P : State → Prop) (before : State) (d : Dispatched) : Prop where
  started : P before
  inside : d.body.Throughout P d.record.found
  ended : P d.world.state

/-- The same of a run that starts in the given state. -/
structure Run.Throughout {α : Type} (P : State → Prop) (before : State) (run : Run α) : Prop where
  inside : run.trace.Throughout P before
  ended : P run.world.state

namespace Mutation.Keep

variable {P : State → Prop} (hP : Keep P)

include hP

theorem next {t : State} (o : Operation) (answer : o.Answer) (ht : P t) :
    P (o.next answer t) := by
  cases o with
  | write m =>
    change Option m.Answer at answer
    cases answer with
    | none => exact ht
    | some answer => exact hP m t ht
  | observe | chain | useGas | read | invalidate | log => exact ht

theorem perform {h : Host} {f : Frame} {gas : Gas} {w : World} (o : Operation) (hw : P w.state) :
    P (h.perform f gas w o).2.2.state := by
  rw [h.state_perform]
  exact hP.next o _ hw

/-- A value is moved by a debit and a credit. -/
theorem transfer {t : State} {source target : Address} {value : Word} {as : Accounts}
    (h : t.accounts.transfer? source target value = some as) (ht : P t) :
    P { t with accounts := as } := by
  unfold Accounts.transfer? at h
  split at h
  · cases h
    exact ht
  · obtain ⟨debited, hdebit, hcredit⟩ := Option.bind_eq_some_iff.mp h
    have hdebited := hP (.debit source value) t ht
    change P (perform? t (t.accounts.debit? source value)).2 at hdebited
    rw [hdebit] at hdebited
    have hcredited := hP (.credit target value) _ hdebited
    change P (perform? _ (debited.credit? target value)).2 at hcredited
    rwa [hcredit] at hcredited

theorem fund {r : Request} {t found : State} (h : r.made.fund? t = some found) (ht : P t) :
    P found := by
  rw [Request.fund?_made] at h
  obtain ⟨as, htransfer, rfl⟩ := Option.map_eq_some_iff.mp h
  exact hP.transfer htransfer ht

/-! ### Calls -/

theorem throughout_run {α : Type} {h : Host} {f : Frame}
    (hresume : ∀ r w, (h.dispatch r w).world.state = (h.dispatch r w).record.resume w.state)
    (hdispatch : ∀ r w, P w.state → (h.dispatch r w).Throughout P w.state) (p : Program α)
    (gas : Gas) (w : World) (hw : P w.state) : (p.run h f gas w).Throughout P w.state := by
  revert hw
  refine Program.run_induction (P := fun _ w run => P w.state → run.Throughout P w.state) ?pure
    ?fail ?abort ?perform ?declined ?aborted ?returned p gas w
  case pure | fail | abort =>
    intro _ gas w hw
    exact ⟨hw, hw⟩
  case perform =>
    intro o gas w rest ih hw
    obtain ⟨hinside, hended⟩ := ih (hP.perform o hw)
    rw [h.state_perform] at hinside
    exact ⟨⟨hw, hinside⟩, hended⟩
  case declined =>
    intro call e gas w rest _ ih hw
    obtain ⟨hinside, hended⟩ := ih hw
    exact ⟨hinside, hended⟩
  case aborted =>
    intro call m reserved gas w d _ hd _ hw
    subst hd
    have hcall := hdispatch (call.request f reserved) w hw
    -- the frame is left in the state that its call has ended in
    have hafter := hcall.ended
    rw [hresume] at hafter
    exact ⟨⟨hw, hcall.inside, hafter⟩, hcall.ended⟩
  case returned =>
    intro call outcome reserved gas w d rest _ hd _ ih hw
    subst hd
    have hcall := hdispatch (call.request f reserved) w hw
    obtain ⟨hinside, hended⟩ := ih hcall.ended
    rw [hresume] at hinside
    exact ⟨⟨hw, hcall.inside, hinside⟩, hended⟩

theorem throughout_handled {s : Setting} {levels : Nat} {c : CallContext} {r : Request} {w : World}
    {handling : Handling} {callee : Run Bytes}
    (hdispatch : ∀ c r w, P w.state → (dispatch s levels c r w).Throughout P w.state)
    (hhandled : r.Handled s levels c w handling callee) (hw : P w.state) :
    callee.Throughout P w.state := by
  cases hhandled with
  | entered hactive hframe hdepth =>
    exact hP.throughout_run (fun r w => state_dispatch s levels _ r w)
      (fun r w => hdispatch _ r w) _ _ w hw
  | codeless | underpaid | stateless | parentless | uncountable => exact ⟨hw, hw⟩

/-- A call is settled by releasing its snapshot, by going back to it, or not at all. -/
theorem throughout_settle {r : Request} {c : CallContext} {id : Nat} {before found : State}
    {handling : Handling} {callee : Run Bytes} (hbefore : P before)
    (hcallee : callee.Throughout P found) :
    (Dispatched.settle r c id found handling callee).Throughout P before := by
  refine ⟨hbefore, ?_, ?_⟩
  · rw [Dispatched.body_settle, Dispatched.found_settle]
    exact hcallee.inside
  · cases hending : callee.ending with
    | aborted m =>
      rw [Dispatched.settle_of_aborted _ _ _ _ _ _ hending]
      exact hcallee.ended
    | returned result =>
      cases result with
      | ok output =>
        rw [Dispatched.settle_of_ok _ _ _ _ _ _ hending]
        exact hP (.commit id) _ hcallee.ended
      | error e =>
        rw [Dispatched.settle_of_error _ _ _ _ _ _ hending]
        exact hP (.revertTo id) _ hcallee.ended

theorem throughout_dispatch (s : Setting) (levels : Nat) (c : CallContext) (r : Request)
    (w : World) : P w.state → (dispatch s levels c r w).Throughout P w.state := by
  refine dispatch_induction (P := fun _ _ w d => P w.state → d.Throughout P w.state) ?tooDeep
    ?executed levels c r w
  case tooDeep =>
    intro c r w hw
    exact ⟨hw, hw, hw⟩
  case executed =>
    intro levels ih c r w d hd hw
    have hsnapshot : P w.state.snapshot.2 := hP .snapshot w.state hw
    cases hd with
    | unfunded => exact ⟨hw, hw, hw⟩
    | overfull => exact hP.throughout_settle hw ⟨hsnapshot, hsnapshot⟩
    | handled hbalance hfund hhandled =>
      have hcallee := hP.throughout_handled ih hhandled (hP.fund hfund hsnapshot)
      exact hP.throughout_settle hw hcallee

/-! ### Engines -/

theorem throughout_made? {e : Engine} {s : Engine.Step} {d : Dispatched} (h : e.made? s = some d)
    (he : P e.world.state) : d.Throughout P e.world.state := by
  obtain ⟨-, -, setting, levels, c, r, w, -, -, hstate, rfl⟩ := Engine.dispatch_of_made? h
  rw [← hstate] at he ⊢
  exact hP.throughout_dispatch setting levels c r w he

theorem engine_step {e : Engine} (s : Engine.Step) (he : P e.world.state) :
    P (e.step s).world.state := by
  cases hmade : e.made? s with
  | some d =>
    obtain ⟨-, hstate, -⟩ := Engine.dispatch_of_made? hmade
    rw [hstate]
    exact (hP.throughout_made? hmade he).ended
  | none =>
    cases s with
    | call | transact => cases hmade
    | enterBlock | enterContext => exact he

/-- A precompile that is run on its own makes its calls in the same way. -/
theorem throughout_runAlone {e : Engine} (p : Precompile) (r : Request) (he : P e.world.state) :
    (e.runAlone p r).2.Throughout P e.world.state := by
  cases p with
  | stateless price run => exact ⟨he, he⟩
  | stateful routine =>
    unfold Engine.runAlone Request.enter
    cases r.frame? with
    | none => exact ⟨he, he⟩
    | some f =>
      dsimp only
      split
      · exact ⟨he, he⟩
      · exact hP.throughout_run (fun r w => state_dispatch e.setting _ _ r w)
          (fun r w => hP.throughout_dispatch e.setting _ _ r w) _ _ e.world he

end Mutation.Keep

end PrecompileHost
