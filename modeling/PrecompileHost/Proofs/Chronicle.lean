import PrecompileHost.Proofs.Discipline

/-!
Which calls stand, and what they have come to. A call stands once it has succeeded, until a frame
around it fails; a chronicle is a relation between accounts, the calls that stand and the accounts
that these have led to. To know that whole call trees keep to a chronicle it is enough to look at
one frame of each active routine.
-/

namespace PrecompileHost

/-! ### Calls that stand -/

/-- What stands of a call when it ends, given the calls inside of it that stand. A failure undoes
them all; a call that is abandoned has undone nothing. -/
def CallRecord.standing (r : CallRecord) (inside : List CallRecord) : List CallRecord :=
  match r.ending with
  | .returned ⟨.ok _, _⟩ => inside ++ [r]
  | .returned ⟨.error _, _⟩ => []
  | .aborted _ => inside

namespace Trace

/-- The calls inside of a frame that stand when it ends, in the order in which they ended. -/
def standing : Trace → List CallRecord
  | .done => []
  | .performed _ _ rest => rest.standing
  | .declined _ _ rest => rest.standing
  | .called call body rest => call.standing body.standing ++ rest.standing

/-- The calls inside of a frame that stand at each moment, moments inside of its calls included. -/
def moments : Trace → List (List CallRecord)
  | .done => [[]]
  | .performed _ _ rest => rest.moments
  | .declined _ _ rest => rest.moments
  | .called call body rest =>
    body.moments ++ rest.moments.map (call.standing body.standing ++ ·)

theorem standing_of_no_call {t : Trace} (h : t.EachCall fun _ _ => False) : t.standing = [] := by
  induction t with
  | done => rfl
  | performed _ _ rest ih => exact ih h
  | declined _ _ rest ih => exact ih h
  | called => exact h.1.1.elim

theorem moments_of_no_call {t : Trace} (h : t.EachCall fun _ _ => False) : t.moments = [[]] := by
  induction t with
  | done => rfl
  | performed _ _ rest ih => exact ih h
  | declined _ _ rest ih => exact ih h
  | called => exact h.1.1.elim

end Trace

namespace Dispatched

def standing (d : Dispatched) : List CallRecord :=
  d.record.standing d.body.standing

def moments (d : Dispatched) : List (List CallRecord) :=
  d.body.moments ++ [d.standing]

end Dispatched

/-! ### Chronicles -/

variable {T : Accounts → List CallRecord → Accounts → Prop}

/-- The calls that stand at the end have led to the accounts of that time, and those that stand
earlier to some. -/
structure Dispatched.Told (T : Accounts → List CallRecord → Accounts → Prop) (before : Accounts)
    (d : Dispatched) : Prop where
  ended : T before d.standing d.world.state.accounts
  moments : ∀ calls ∈ d.moments, ∃ as, T before calls as

structure Run.Told {α : Type} (T : Accounts → List CallRecord → Accounts → Prop)
    (before : Accounts) (run : Run α) : Prop where
  ended : T before run.trace.standing run.world.state.accounts
  moments : ∀ calls ∈ run.trace.moments, ∃ as, T before calls as

/-- The operation handles no snapshots, and what it does to accounts comes to nothing. -/
def Operation.Unnoticed (T : Accounts → List CallRecord → Accounts → Prop) : Operation → Prop
  | .write m => m.isSnapshotControl = false ∧
      ∀ t : State, T t.accounts [] (m.apply t).2.accounts
  | _ => True

/-- How a frame of the routine at `a` keeps to a chronicle. -/
inductive Chronicled (s : Setting) (T : Accounts → List CallRecord → Accounts → Prop)
    (a : Address) (routine : Bytes → Program Bytes) : Prop
  /-- Neither what the routine does by itself nor its success comes to anything. -/
  | unnoticed (text : ∀ input, (routine input).Only (Operation.Unnoticed T))
      (record : ∀ (r : CallRecord) as, r.request.target = a → T as [r] as)
  /-- The routine makes no calls, and its success comes to what the chronicle says. -/
  | leaf (text : ∀ input, (routine input).Leaf fun o => o.handlesSnapshots = false)
      (success : ∀ (h : Host) frame input gas w output, h.setting = s →
        ((routine input).run h frame gas w).ending = .returned (.ok output) →
        ∀ r : CallRecord, r.request.target = a → r.request.input = input →
          r.handling = .entered frame →
            T w.state.accounts [r] ((routine input).run h frame gas w).world.state.accounts)

/-- `T` tells what the calls in a setting come to: it can be told piece by piece, values that are
moved and calls that open no frame come to nothing, and each active routine keeps to it. -/
structure Setting.Chronicle (s : Setting) (T : Accounts → List CallRecord → Accounts → Prop) :
    Prop where
  refl : ∀ as, T as [] as
  trans : ∀ {as bs cs calls calls'}, T as calls bs → T bs calls' cs → T as (calls ++ calls') cs
  transfer : ∀ {as bs source target value}, as.transfer? source target value = some bs →
    T as [] bs
  frameless : ∀ (r : CallRecord) as, (∀ frame, r.handling ≠ .entered frame) → T as [r] as
  routines : ∀ a routine, s.active.get? a = some (.stateful routine) → Chronicled s T a routine

namespace Setting.Chronicle

variable {s : Setting}

theorem after (hT : s.Chronicle T) {as bs cs : Accounts} {calls : List CallRecord}
    (h : T as [] bs) (hcalls : T bs calls cs) : T as calls cs :=
  hT.trans h hcalls

theorem fund (hT : s.Chronicle T) {r : Request} {t found : State} (h : r.fund? t = some found) :
    T t.accounts [] found.accounts := by
  unfold Request.fund? at h
  split at h
  · obtain ⟨as, htransfer, rfl⟩ := Option.map_eq_some_iff.mp h
    exact hT.transfer htransfer
  all_goals
    cases h
    exact hT.refl _

theorem perform (hT : s.Chronicle T) (h : Host) (frame : Frame) (gas : Gas) (w : World)
    {o : Operation} (ho : o.Unnoticed T) :
    T w.state.accounts [] (h.perform frame gas w o).2.2.state.accounts := by
  by_cases hro : h.context.readOnly = true
  · rw [h.state_perform_of_readOnly frame gas w o hro]
    exact hT.refl _
  · cases o with
    | useGas amount =>
      simp only [Host.perform]
      split <;> exact hT.refl _
    | write m =>
      simp only [Host.perform, if_neg hro]
      exact ho.2 w.state
    | observe | chain | read | invalidate | log => exact hT.refl _

theorem only (hT : s.Chronicle T) : s.active.Only fun _ o => o.handlesSnapshots = false := by
  intro a routine hroutine input
  cases hT.routines a routine hroutine with
  | unnoticed text record =>
    refine (text input).mono fun o ho => ?_
    cases o with
    | write m => exact ho.1
    | observe | chain | useGas | read | invalidate | log => rfl
  | leaf text success => exact (text input).only

/-- What a routine comes to whose own operations come to nothing is told by its nested calls. -/
theorem told_run (hT : s.Chronicle T) {α : Type} {h : Host} {frame : Frame}
    (hdispatch : ∀ r w, (h.dispatch r w).Told T w.state.accounts) (p : Program α)
    (hp : p.Only (Operation.Unnoticed T)) (gas : Gas) (w : World) :
    (p.run h frame gas w).Told T w.state.accounts := by
  have hown := hp.eachPerformed_run h frame gas w
  revert hown
  refine Program.run_induction (P := fun _ w run =>
    (run.trace.EachPerformed fun o _ => o.Unnoticed T) → run.Told T w.state.accounts) ?pure ?fail
    ?abort ?perform ?declined ?aborted ?returned p gas w
  case pure | fail | abort =>
    intro _ gas w _
    refine ⟨hT.refl _, fun calls hcalls => ⟨w.state.accounts, ?_⟩⟩
    cases List.mem_singleton.mp hcalls
    exact hT.refl _
  case perform =>
    intro o gas w rest ih hown
    have hstep := hT.perform h frame gas w hown.1
    have hrest := ih hown.2
    refine ⟨hT.after hstep hrest.ended, fun calls hcalls => ?_⟩
    obtain ⟨as, has⟩ := hrest.moments calls hcalls
    exact ⟨as, hT.after hstep has⟩
  case declined =>
    intro call e gas w rest _ ih hown
    exact ⟨(ih hown).ended, (ih hown).moments⟩
  case aborted =>
    intro call m reserved gas w d _ hd _ _
    have hcall : d.Told T w.state.accounts := hd ▸ hdispatch _ _
    refine ⟨?_, fun calls hcalls => ?_⟩
    · change T _ (d.standing ++ []) _
      rw [List.append_nil]
      exact hcall.ended
    · change calls ∈ d.body.moments ++ [d.standing ++ []] at hcalls
      rw [List.append_nil] at hcalls
      exact hcall.moments calls hcalls
  case returned =>
    intro call outcome reserved gas w d rest _ hd _ ih hown
    have hcall : d.Told T w.state.accounts := hd ▸ hdispatch _ _
    have hrest := ih hown
    refine ⟨hT.trans hcall.ended hrest.ended, fun calls hcalls => ?_⟩
    -- a moment is either inside of the nested call or after it
    rcases List.mem_append.mp hcalls with hinside | hlater
    · exact hcall.moments calls (List.mem_append_left _ hinside)
    · obtain ⟨later, hmem, rfl⟩ := List.mem_map.mp hlater
      obtain ⟨as, has⟩ := hrest.moments later hmem
      exact ⟨as, hT.trans hcall.ended has⟩

end Setting.Chronicle

/-- What a callee comes to, started from the accounts `before`: its success counts its own record
among the calls that stand, and nothing is asked of a failure, since that is undone. -/
structure Request.CalleeTold (T : Accounts → List CallRecord → Accounts → Prop)
    (before : Accounts) (r : Request) (handling : Handling) (callee : Run Bytes) : Prop where
  succeeded : ∀ output, callee.ending = .returned (.ok output) →
    ∀ record : CallRecord, record.request = r → record.handling = handling →
      T before (callee.trace.standing ++ [record]) callee.world.state.accounts
  abandoned : ∀ m, callee.ending = .aborted m →
    T before callee.trace.standing callee.world.state.accounts
  moments : ∀ calls ∈ callee.trace.moments, ∃ as, T before calls as

namespace Setting.Chronicle

variable {s : Setting}

theorem told_frameless (hT : s.Chronicle T) {r : Request} {handling : Handling} {w : World}
    (hne : ∀ frame, handling ≠ .entered frame) (ending : Ending CallResult) (gas : Gas) :
    r.CalleeTold T w.state.accounts handling ⟨ending, gas, w, .done⟩ := by
  refine ⟨fun output _ record _ hrecord => ?_, fun m _ => hT.refl _, fun calls hcalls => ?_⟩
  · exact hT.frameless record _ (hrecord ▸ hne)
  · cases List.mem_singleton.mp hcalls
    exact ⟨_, hT.refl _⟩

theorem told_entered (hT : s.Chronicle T) {r : Request} {routine : Bytes → Program Bytes}
    (hactive : s.active.get? r.target = some (.stateful routine)) {h : Host} (hs : h.setting = s)
    (hdispatch : ∀ r w, (h.dispatch r w).Told T w.state.accounts) (frame : Frame) (w : World) :
    r.CalleeTold T w.state.accounts (.entered frame)
      ((routine r.input).run h frame r.gas w) := by
  cases hT.routines _ routine hactive with
  | unnoticed text record =>
    have hrun : ((routine r.input).run h frame r.gas w).Told T w.state.accounts :=
      hT.told_run hdispatch _ (text r.input) r.gas w
    refine ⟨fun output _ called hrequest _ => ?_, fun _ _ => hrun.ended, hrun.moments⟩
    exact hT.trans hrun.ended (record called _ (by rw [hrequest]))
  | leaf text success =>
    obtain ⟨⟨result, hreturned⟩, hnone⟩ := (text r.input).returns_run h frame r.gas w
    refine ⟨fun output hok called hrequest hhandling => ?_, fun m haborted => ?_,
      fun calls hcalls => ?_⟩
    · rw [Trace.standing_of_no_call hnone]
      exact success h frame _ _ _ output hs hok called (by rw [hrequest]) (by rw [hrequest])
        hhandling
    · rw [hreturned] at haborted
      cases haborted
    · rw [Trace.moments_of_no_call hnone] at hcalls
      cases List.mem_singleton.mp hcalls
      exact ⟨_, hT.refl _⟩

theorem told_handled (hT : s.Chronicle T) {levels : Nat} {c : CallContext} {r : Request}
    {w : World} {handling : Handling} {callee : Run Bytes}
    (hdispatch : ∀ c r w, (dispatch s levels c r w).Told T w.state.accounts)
    (hhandled : r.Handled s levels c w handling callee) :
    r.CalleeTold T w.state.accounts handling callee := by
  cases hhandled with
  | entered hactive hframe hdepth =>
    exact hT.told_entered hactive rfl (fun r w => hdispatch _ r w) _ w
  | codeless | underpaid | stateless | parentless | uncountable =>
    exact hT.told_frameless (fun _ h => by cases h) _ _

theorem told_funded (hT : s.Chronicle T) {before after : Accounts} (hfund : T before [] after)
    {r : Request} {handling : Handling} {callee : Run Bytes}
    (hcallee : r.CalleeTold T after handling callee) : r.CalleeTold T before handling callee where
  succeeded output hok record hrequest hhandling :=
    hT.after hfund (hcallee.succeeded output hok record hrequest hhandling)
  abandoned m haborted := hT.after hfund (hcallee.abandoned m haborted)
  moments calls hcalls := by
    obtain ⟨as, has⟩ := hcallee.moments calls hcalls
    exact ⟨as, hT.after hfund has⟩

end Setting.Chronicle

namespace Dispatched

/-- A settled call keeps to a chronicle if its callee does. -/
theorem told_settle {r : Request} {c : CallContext} {id : Nat} {before found : State}
    {handling : Handling} {callee : Run Bytes} (hrefl : T before.accounts [] before.accounts)
    (hatomic : ∀ outcome,
      (settle r c id found handling callee).record.ending = .returned outcome →
        (settle r c id found handling callee).Atomic before outcome)
    (hcallee : r.CalleeTold T before.accounts handling callee) :
    (settle r c id found handling callee).Told T before.accounts := by
  have hended : T before.accounts (settle r c id found handling callee).standing
      (settle r c id found handling callee).world.state.accounts := by
    cases hending : callee.ending with
    | aborted m =>
      rw [settle_of_aborted _ _ _ _ _ _ hending]
      exact hcallee.abandoned m hending
    | returned result =>
      cases result with
      | ok output =>
        rw [settle_of_ok _ _ _ _ _ _ hending]
        exact hcallee.succeeded output hending _ rfl rfl
      | error e =>
        -- the failure has taken the accounts back, and nothing of the callee stands
        rw [settle_of_error _ _ _ _ _ _ hending] at hatomic ⊢
        rw [(hatomic _ rfl).undone e rfl]
        exact hrefl
  refine ⟨hended, fun calls hcalls => ?_⟩
  rw [Dispatched.moments, body_settle] at hcalls
  rcases List.mem_append.mp hcalls with hinside | hlast
  · exact hcallee.moments calls hinside
  · cases List.mem_singleton.mp hlast
    exact ⟨_, hended⟩

theorem told_refused {before : Accounts} {r : Request} {c : CallContext} {handling : Handling}
    {e : CallError} {w : World} (hrefl : T before [] before) (hw : w.state.accounts = before) :
    (refused r c handling e w).Told T before := by
  refine ⟨?_, fun calls hcalls => ⟨before, ?_⟩⟩
  · change T before [] w.state.accounts
    rw [hw]
    exact hrefl
  · have hnil : calls = [] := by
      change calls ∈ [[], []] at hcalls
      simpa using hcalls
    rw [hnil]
    exact hrefl

end Dispatched

/-- Every call tree in a setting keeps to its chronicles. -/
theorem Setting.Chronicle.told_dispatch {s : Setting} (hT : s.Chronicle T) (levels : Nat)
    (c : CallContext) (r : Request) (w : World) :
    (dispatch s levels c r w).Told T w.state.accounts := by
  have hatomic : ∀ levels c r w outcome,
      (dispatch s levels c r w).record.ending = .returned outcome →
        (dispatch s levels c r w).Atomic w.state outcome := fun levels c r w outcome hreturned =>
    dispatch_atomic s levels c r w outcome hreturned (dispatch_settlesOwn hT.only levels c r w)
  -- atomicity is not known of a call that is merely executed, so it goes through the induction
  -- as a hypothesis
  refine dispatch_induction (P := fun _ _ w d =>
    (∀ outcome, d.record.ending = .returned outcome → d.Atomic w.state outcome) →
      d.Told T w.state.accounts) ?tooDeep ?executed levels c r w (hatomic levels c r w)
  case tooDeep =>
    intro c r w _
    exact Dispatched.told_refused (hT.refl _) rfl
  case executed =>
    intro levels ih c r w d hd hown
    cases hd with
    | unfunded => exact Dispatched.told_refused (hT.refl _) rfl
    | overfull =>
      refine Dispatched.told_settle (hT.refl _) hown ?_
      exact hT.told_frameless (w := { w with state := w.state.snapshot.2 })
        (fun _ h => by cases h) _ _
    | @handled _ found hfund handling callee hhandled =>
      refine Dispatched.told_settle (hT.refl _) hown ?_
      refine hT.told_funded (hT.fund (t := w.state.snapshot.2) hfund) ?_
      exact hT.told_handled (fun c r w => ih c r w (hatomic _ c r w)) hhandled

end PrecompileHost
