import PrecompileHost.Proofs.Leaves

/-!
Calls that a list of checks decides. A routine that makes its checks one after the other fails with
the error of the first one that is not passed, and has its effect if all of them are. For a leaf
that is so of the whole call, whatever its value was and whichever account has paid it: a failure
takes back what was done before it, the payment included.
-/

namespace PrecompileHost

/-- Something that a call insists on, with the error of a call for which it does not hold. -/
structure Check where
  condition : Prop
  error : CallError

namespace Check

def Passed (checks : List Check) : Prop :=
  ∀ check ∈ checks, check.condition

/-- `Stops checks e`: the first of the checks that is not passed has the error `e`. -/
inductive Stops : List Check → CallError → Prop
  | here {check : Check} {rest : List Check} (h : ¬ check.condition) :
      Stops (check :: rest) check.error
  | later {check : Check} {rest : List Check} {e : CallError} (h : check.condition)
      (hrest : Stops rest e) : Stops (check :: rest) e

variable {check : Check} {checks rest : List Check} {e : CallError}

@[simp] theorem passed_nil : Passed [] :=
  nofun

@[simp] theorem passed_cons : Passed (check :: rest) ↔ check.condition ∧ Passed rest :=
  List.forall_mem_cons

@[simp] theorem passed_append : Passed (checks ++ rest) ↔ Passed checks ∧ Passed rest :=
  List.forall_mem_append

@[simp] theorem stops_nil : ¬ Stops [] e :=
  nofun

@[simp] theorem stops_cons :
    Stops (check :: rest) e ↔
      ¬ check.condition ∧ e = check.error ∨ check.condition ∧ Stops rest e := by
  constructor
  · intro h
    cases h with
    | here h => exact .inl ⟨h, rfl⟩
    | later h hrest => exact .inr ⟨h, hrest⟩
  · rintro (⟨h, rfl⟩ | ⟨h, hrest⟩)
    · exact .here h
    · exact .later h hrest

@[simp] theorem stops_append :
    Stops (checks ++ rest) e ↔ Stops checks e ∨ Passed checks ∧ Stops rest e := by
  induction checks with
  | nil => simp
  | cons check checks ih =>
    rw [List.cons_append, stops_cons, ih, stops_cons, passed_cons]
    constructor
    · rintro (h | ⟨h, hstops | ⟨hpassed, hstops⟩⟩)
      · exact .inl (.inl h)
      · exact .inl (.inr ⟨h, hstops⟩)
      · exact .inr ⟨⟨h, hpassed⟩, hstops⟩
    · rintro ((h | ⟨h, hstops⟩) | ⟨⟨h, hpassed⟩, hstops⟩)
      · exact .inl h
      · exact .inr ⟨h, .inl hstops⟩
      · exact .inr ⟨h, .inr ⟨hpassed, hstops⟩⟩

/-- Either all checks are passed, or there is a first that is not. -/
theorem passed_or_stops (checks : List Check) : Passed checks ∨ ∃ e, Stops checks e := by
  induction checks with
  | nil => exact .inl passed_nil
  | cons check rest ih =>
    by_cases h : check.condition
    · rcases ih with hpassed | ⟨e, hstops⟩
      · exact .inl (passed_cons.mpr ⟨h, hpassed⟩)
      · exact .inr ⟨e, .later h hstops⟩
    · exact .inr ⟨check.error, .here h⟩

theorem not_passed_of_stops (h : Stops checks e) : ¬ Passed checks := by
  induction h with
  | here h => exact fun hpassed => h (passed_cons.mp hpassed).1
  | later _ _ ih => exact fun hpassed => ih (passed_cons.mp hpassed).2

theorem stops_unique {e' : CallError} (h : Stops checks e) (h' : Stops checks e') : e = e' := by
  induction h with
  | here h =>
    cases h' with
    | here => rfl
    | later h' => exact absurd h' h
  | later h _ ih =>
    cases h' with
    | here h' => exact absurd h h'
    | later _ hrest => exact ih hrest

end Check

namespace Engine

/-- Whether the call succeeds, and its error if it does not, is decided by the checks. A call that
succeeds answers nothing, has paid the price and has had its effect; one that fails has spent its
gas and changed no account. -/
structure DecidedBy (e : Engine) (r : Request) (checks : List Check) (price : Gas)
    (Effect : Accounts → Prop) : Prop where
  succeeds : (∃ output left, (e.dispatch r).record.ending = .returned ⟨.ok output, left⟩) ↔
    Check.Passed checks
  fails : ∀ error, (∃ left, (e.dispatch r).record.ending = .returned ⟨.error error, left⟩) ↔
    Check.Stops checks error
  success : ∀ output left, (e.dispatch r).record.ending = .returned ⟨.ok output, left⟩ →
    output = [] ∧ left = r.gas - price ∧ Effect (e.dispatch r).world.state.accounts
  failure : ∀ error left, (e.dispatch r).record.ending = .returned ⟨.error error, left⟩ →
    left = 0 ∧ (e.dispatch r).world.state.accounts = e.world.state.accounts

variable {e : Engine} {r : Request} {checks : List Check} {price : Gas}
  {Effect : Accounts → Prop}

/-- It is enough to know what a call comes to that passes its checks, and one that does not. -/
theorem decidedBy_of_endings
    (hpassed : Check.Passed checks →
      (e.dispatch r).record.ending = .returned ⟨.ok [], r.gas - price⟩ ∧
        Effect (e.dispatch r).world.state.accounts)
    (hstops : ∀ error, Check.Stops checks error →
      (e.dispatch r).record.ending = .returned ⟨.error error, 0⟩ ∧
        (e.dispatch r).world.state.accounts = e.world.state.accounts) :
    e.DecidedBy r checks price Effect := by
  rcases Check.passed_or_stops checks with h | ⟨error, h⟩
  · -- all checks are passed, so none of them stops the call
    obtain ⟨hending, heffect⟩ := hpassed h
    have hnever : ∀ error, ¬ Check.Stops checks error := fun error hstop =>
      Check.not_passed_of_stops hstop h
    constructor
    · exact iff_of_true ⟨_, _, hending⟩ h
    · refine fun error => iff_of_false ?_ (hnever error)
      rintro ⟨left, herror⟩
      cases hending.symm.trans herror
    · intro output left hok
      cases hending.symm.trans hok
      exact ⟨rfl, rfl, heffect⟩
    · intro error left herror
      cases hending.symm.trans herror
  · -- the first check that is not passed is the only one that can
    obtain ⟨hending, hundone⟩ := hstops error h
    constructor
    · refine iff_of_false ?_ (Check.not_passed_of_stops h)
      rintro ⟨output, left, hok⟩
      cases hending.symm.trans hok
    · refine fun error' => ⟨?_, fun hstop => ⟨0, ?_⟩⟩
      · rintro ⟨left, herror⟩
        cases hending.symm.trans herror
        exact h
      · rw [Check.stops_unique hstop h]
        exact hending
    · intro output left hok
      cases hending.symm.trans hok
    · intro error' left herror
      cases hending.symm.trans herror
      exact ⟨rfl, hundone⟩

variable {routine : Bytes → Program Bytes} {f : Frame} {paid : Accounts}

/-- A frame that cannot be counted is not opened, and the call is abandoned. -/
theorem ending_of_uncountable (hdepth : e.context.depth ≤ e.setting.maxDepth)
    (hactive : e.setting.active.get? r.target = some (.stateful routine))
    (hframe : r.frame? = some f) (hfunded : r.Funded e.world.state.accounts paid)
    (hlimit : CallContext.depthLimit ≤ e.context.depth + 1) :
    (e.dispatch r).record.ending = .aborted "attempt to add with overflow" := by
  rw [dispatch_of_funded hdepth hfunded, callee_of_stateful hactive hframe, if_pos hlimit]
  exact Dispatched.ending_settle ..

/-- If checks decide how a leaf ends, then also how its call does. -/
theorem decidedBy_of_leaf (hdepth : e.context.depth ≤ e.setting.maxDepth)
    (hactive : e.setting.active.get? r.target = some (.stateful routine))
    (hframe : r.frame? = some f) (hfunded : r.Funded e.world.state.accounts paid)
    (hcount : e.context.depth + 1 < CallContext.depthLimit)
    (hleaf : ∀ input, (routine input).Leaf fun o => o.handlesSnapshots = false)
    (hyields : Check.Passed checks → ∃ bs, Effect bs ∧
      (routine r.input).Yields (e.frameHost r.callType) f r.gas (e.entering paid).world []
        (r.gas - price) ((e.entering paid).world.holding bs))
    (hfails : ∀ error, Check.Stops checks error → error.isRevert = false ∧
      (routine r.input).Fails (e.frameHost r.callType) f r.gas (e.entering paid).world error) :
    e.DecidedBy r checks price Effect := by
  have hdispatch := dispatch_of_funded hdepth hfunded
  rw [callee_of_stateful hactive hframe, if_neg (Nat.not_le.mpr hcount)] at hdispatch
  have hending : (e.dispatch r).record.ending =
      ((routine r.input).run (e.frameHost r.callType) f r.gas (e.entering paid).world).settled := by
    rw [hdispatch]
    exact Dispatched.ending_settle ..
  refine decidedBy_of_endings (fun hpassed => ?_) fun error hstop => ?_
  · obtain ⟨bs, heffect, hrun⟩ := hyields hpassed
    refine ⟨hending.trans hrun.settled, ?_⟩
    rw [hdispatch, Dispatched.settle_of_ok _ _ _ _ _ _ hrun.success]
    have hworld := congrArg (fun w : World => w.state.accounts) hrun.worldAfter
    exact hworld ▸ heffect
  · obtain ⟨hrevert, hrun⟩ := hfails error hstop
    have herror := hending.trans (hrun.settled hrevert)
    refine ⟨herror, accounts_dispatch_of_error (fun routine' hactive' => ?_) herror⟩
    cases hactive.symm.trans hactive'
    exact hleaf

end Engine

end PrecompileHost
