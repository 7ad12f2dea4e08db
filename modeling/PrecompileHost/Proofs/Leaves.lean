import PrecompileHost.Proofs.Discipline
import PrecompileHost.Proofs.Failure
import PrecompileHost.Proofs.Funding

/-!
Calls whose callee is a leaf. A leaf succeeds or fails, so what its call comes to is known once it
is known when it succeeds and when it fails; and it settles no snapshots, so that a failure takes
back all that was done. Two calls that move no value can then be compared by comparing their
callees.
-/

namespace PrecompileHost

/-! ### Callees -/

namespace Program

variable {α : Type} {P : Operation → Prop}

theorem Leaf.yields_or_fails {p : Program α} (hp : p.Leaf P) (h : Host) (f : Frame) (gas : Gas)
    (w : World) :
    (∃ a left after, p.Yields h f gas w a left after) ∨ ∃ e, p.Fails h f gas w e := by
  obtain ⟨⟨result, hreturned⟩, -⟩ := hp.returns_run h f gas w
  cases result with
  | ok a => exact .inl ⟨a, _, _, yields_of_ending hreturned⟩
  | error e => exact .inr ⟨e, hreturned⟩

variable {h : Host} {f : Frame} {gas left : Gas} {w after : World} {p : Program Bytes}

theorem Yields.settled {output : Bytes} (hp : p.Yields h f gas w output left after) :
    (p.run h f gas w).settled = .returned ⟨.ok output, left⟩ := by
  unfold Run.settled
  rw [hp.success, ← hp.gasLeft]

/-- A failure takes the gas, unless it is a revert. -/
theorem Fails.settled {e : CallError} (hp : p.Fails h f gas w e) (hrevert : e.isRevert = false) :
    (p.run h f gas w).settled = .returned ⟨.error e, 0⟩ := by
  unfold Fails at hp
  unfold Run.settled
  simp only [hp, hrevert]
  rfl

end Program

theorem Program.Leaf.settled_ne_aborted {P : Operation → Prop} {p : Program Bytes} (hp : p.Leaf P)
    {h : Host} {f : Frame} {gas : Gas} {w : World} (m : String) :
    (p.run h f gas w).settled ≠ .aborted m := by
  obtain ⟨⟨result, hreturned⟩, -⟩ := hp.returns_run h f gas w
  unfold Run.settled
  rw [hreturned]
  intro haborted
  cases result with
  | ok output => cases haborted
  | error e => cases haborted

theorem Run.ending_of_settled {run : Run Bytes} {result : CallResult} {left : Gas}
    (h : run.settled = .returned ⟨result, left⟩) : run.ending = .returned result := by
  obtain ⟨ending, gas, w, trace⟩ := run
  cases ending with
  | aborted m => cases h
  | returned result' =>
    cases result' with
    | ok output =>
      cases h
      rfl
    | error e =>
      cases h
      rfl

theorem Run.failed_iff (run : Run Bytes) :
    (∃ e left, run.settled = .returned ⟨.error e, left⟩) ↔
      ∃ e, run.ending = .returned (.error e) := by
  constructor
  · rintro ⟨e, left, hsettled⟩
    exact ⟨e, Run.ending_of_settled hsettled⟩
  · rintro ⟨e, hending⟩
    refine ⟨e, if e.isRevert then run.gas else 0, ?_⟩
    unfold settled
    rw [hending]

/-- Two callees come to the same for those who have called them. -/
structure Run.Alike (a b : Run Bytes) : Prop where
  settled : a.settled = b.settled
  accounts : (∀ e, a.ending ≠ .returned (.error e)) →
    a.world.state.accounts = b.world.state.accounts

theorem Run.Alike.refl (run : Run Bytes) : run.Alike run :=
  ⟨rfl, fun _ => rfl⟩

/-- Two runs of a leaf come to the same if one succeeds and fails as the other does. -/
theorem Program.Leaf.alike {P : Operation → Prop} {p : Program Bytes} (hp : p.Leaf P)
    {h h' : Host} {f f' : Frame} {gas : Gas} {w : World}
    (hyields : ∀ output left after, p.Yields h f gas w output left after →
      p.Yields h' f' gas w output left after)
    (hfails : ∀ e, p.Fails h f gas w e → e.isRevert = false ∧ p.Fails h' f' gas w e) :
    (p.run h f gas w).Alike (p.run h' f' gas w) := by
  rcases hp.yields_or_fails h f gas w with ⟨output, left, after, hok⟩ | ⟨e, herror⟩
  · have hok' := hyields output left after hok
    refine ⟨hok.settled.trans hok'.settled.symm, fun _ => ?_⟩
    rw [hok.worldAfter, hok'.worldAfter]
  · obtain ⟨hrevert, herror'⟩ := hfails e herror
    refine ⟨(herror.settled hrevert).trans (herror'.settled hrevert).symm, fun hne => ?_⟩
    exact absurd herror (hne e)

/-! ### Calls -/

theorem target_dispatch (s : Setting) (levels : Nat) (c : CallContext) (r : Request) (w : World) :
    (dispatch s levels c r w).record.request.target = r.target := by
  rcases request_dispatch s levels c r w with hrequest | hrequest
  · rw [hrequest]
  · rw [hrequest, Request.target_made]

/-- The call of a leaf that handles no snapshots settles none but its own, whatever else is
active. -/
theorem dispatch_settlesOwn_of_leaf {s : Setting} {r : Request}
    (hleaf : ∀ routine, s.active.get? r.target = some (.stateful routine) → ∀ input,
      (routine input).Leaf fun o => o.handlesSnapshots = false)
    (levels : Nat) (c : CallContext) (w : World) :
    (dispatch s levels c r w).EachCall CallRecord.SettlesOwn := by
  have hstaged := staged_dispatch s levels c r w
  by_cases hentered : ∃ f, (dispatch s levels c r w).record.handling = .entered f
  · obtain ⟨f, hf⟩ := hentered
    obtain ⟨routine, nested, found, hran⟩ := hstaged.ran f hf
    have hactive := hran.active
    rw [target_dispatch] at hactive
    have hroutine := hleaf routine hactive (dispatch s levels c r w).record.request.input
    refine ⟨CallRecord.settlesOwn_of_spares ?_, ?_⟩
    · rw [hran.body]
      exact hroutine.only.eachPerformed_run _ _ _ _
    · rw [hran.body]
      exact (hroutine.returns_run _ _ _ _).2.mono fun _ _ hnone => hnone.elim
  · have hbody : (dispatch s levels c r w).body = .done :=
      hstaged.still fun f hf => hentered ⟨f, hf⟩
    rw [Dispatched.EachCall, hbody]
    exact ⟨trivial, trivial⟩

/-- The call moves nothing, and its caller has the value that it shows. -/
structure Request.Unmoved (r : Request) (as : Accounts) : Prop where
  covered : ¬ as.balance r.caller.address < r.carriedValue
  moved : r.movedValue = 0

theorem Request.Unmoved.funded {r : Request} {as : Accounts} (h : r.Unmoved as) :
    r.Funded as as where
  covered := h.covered
  transfer := by rw [h.moved, Accounts.transfer?, if_pos rfl]

theorem Request.unmoved_of_valueless {r : Request} (h : r.carriedValue = 0) (as : Accounts) :
    r.Unmoved as where
  covered := by
    rw [h]
    exact BitVec.not_lt_zero
  moved := Request.movedValue_eq_zero fun hcall => by
    rw [Request.carriedValue, hcall] at h
    exact h

/-- The two calls end alike and leave the same accounts. -/
def Dispatched.Agrees (d d' : Dispatched) : Prop :=
  d.record.ending = d'.record.ending ∧ d.world.state.accounts = d'.world.state.accounts

namespace Engine

variable (e : Engine)

/-- The world in which the callee of a call starts that moves nothing. -/
def kept (e : Engine) : World :=
  { e.world with state := e.world.state.snapshot.2 }

/-- The frame's host of a call of type `t`. -/
def frameHost (e : Engine) (t : CallType) : Host :=
  e.setting.host (e.setting.levels (e.context.depth + 1)) (e.context.enter t)

/-- What is active at the target of a call, run as the callee of one that moves nothing. -/
def reached (e : Engine) (r : Request) : Handling × Run Bytes :=
  r.made.runTarget e.setting
    (PrecompileHost.dispatch e.setting (e.setting.levels (e.context.depth + 1))) e.context e.kept

variable {e} {r r' : Request}

/-- A call that moves nothing is one that leaves its callee the accounts of before. -/
theorem dispatch_eq_settle (hdepth : e.context.depth ≤ e.setting.maxDepth)
    (hr : r.Unmoved e.world.state.accounts) :
    e.dispatch r = .settle r.made e.context e.world.state.snapshots.length
      e.world.state.snapshot.2 (e.reached r).1 (e.reached r).2 :=
  dispatch_of_funded hdepth hr.funded

theorem request_dispatch (hdepth : e.context.depth ≤ e.setting.maxDepth)
    (hr : r.Unmoved e.world.state.accounts) : (e.dispatch r).record.request = r.made := by
  rw [dispatch_eq_settle hdepth hr, Dispatched.request_settle]

theorem handling_dispatch (hdepth : e.context.depth ≤ e.setting.maxDepth)
    (hr : r.Unmoved e.world.state.accounts) :
    (e.dispatch r).record.handling = (e.reached r).1 := by
  rw [dispatch_eq_settle hdepth hr, Dispatched.handling_settle]

theorem ending_dispatch (hdepth : e.context.depth ≤ e.setting.maxDepth)
    (hr : r.Unmoved e.world.state.accounts) :
    (e.dispatch r).record.ending = (e.reached r).2.settled := by
  rw [dispatch_eq_settle hdepth hr, Dispatched.ending_settle]

/-- A call leaves the accounts that its callee has left, unless that has failed. -/
theorem accounts_dispatch_of_funded {paid : Accounts}
    (hdepth : e.context.depth ≤ e.setting.maxDepth) (h : r.Funded e.world.state.accounts paid)
    (hok : ∀ error, (e.callee paid r).2.ending ≠ .returned (.error error)) :
    (e.dispatch r).world.state.accounts = (e.callee paid r).2.world.state.accounts := by
  rw [dispatch_of_funded hdepth h]
  cases hending : (e.callee paid r).2.ending with
  | aborted m =>
    rw [Dispatched.settle_of_aborted _ _ _ _ _ _ hending]
  | returned result =>
    cases result with
    | ok output =>
      rw [Dispatched.settle_of_ok _ _ _ _ _ _ hending]
      rfl
    | error error => exact absurd hending (hok error)

theorem accounts_dispatch (hdepth : e.context.depth ≤ e.setting.maxDepth)
    (hr : r.Unmoved e.world.state.accounts)
    (hok : ∀ error, (e.reached r).2.ending ≠ .returned (.error error)) :
    (e.dispatch r).world.state.accounts = (e.reached r).2.world.state.accounts :=
  accounts_dispatch_of_funded hdepth hr.funded hok

theorem callee_of_stateless {price : Bytes → Gas} {run : Bytes → CallResult}
    (hactive : e.setting.active.get? r.target = some (.stateless price run)) (paid : Accounts) :
    (e.callee paid r).2 =
      match Gas.sub? r.gas (price r.input) with
      | none => ⟨.returned (.error .outOfGas), 0, (e.entering paid).world, .done⟩
      | some left => ⟨.returned (run r.input), left, (e.entering paid).world, .done⟩ := by
  unfold callee Request.runTarget
  simp only [Request.target_made, hactive, Request.gas_made, Request.input_made]
  cases Gas.sub? r.gas (price r.input) <;> rfl

theorem reached_of_stateless {price : Bytes → Gas} {run : Bytes → CallResult}
    (hactive : e.setting.active.get? r.target = some (.stateless price run)) :
    (e.reached r).2 =
      match Gas.sub? r.gas (price r.input) with
      | none => ⟨.returned (.error .outOfGas), 0, e.kept, .done⟩
      | some left => ⟨.returned (run r.input), left, e.kept, .done⟩ :=
  callee_of_stateless hactive e.world.state.accounts

theorem callee_of_frameless {routine : Bytes → Program Bytes}
    (hactive : e.setting.active.get? r.target = some (.stateful routine))
    (hframe : r.frame? = none) (paid : Accounts) :
    e.callee paid r =
      (.parentless,
        ⟨.returned (.error .delegateWithoutFrame), r.gas, (e.entering paid).world, .done⟩) := by
  unfold callee Request.runTarget Request.enter
  simp only [Request.target_made, hactive, Request.frame?_made, hframe, Request.gas_made]

theorem callee_of_stateful {routine : Bytes → Program Bytes} {f : Frame}
    (hactive : e.setting.active.get? r.target = some (.stateful routine))
    (hframe : r.frame? = some f) (paid : Accounts) :
    e.callee paid r =
      if CallContext.depthLimit ≤ e.context.depth + 1 then
        (.uncountable,
          ⟨.aborted "attempt to add with overflow", r.gas, (e.entering paid).world, .done⟩)
      else
        (.entered f,
          (routine r.input).run (e.frameHost r.callType) f r.gas (e.entering paid).world) := by
  unfold callee Request.runTarget Request.enter
  simp only [Request.target_made, hactive, Request.frame?_made, hframe]
  rfl

theorem reached_of_stateful {routine : Bytes → Program Bytes} {f : Frame}
    (hactive : e.setting.active.get? r.target = some (.stateful routine))
    (hframe : r.frame? = some f) :
    (e.reached r).2 =
      if CallContext.depthLimit ≤ e.context.depth + 1 then
        ⟨.aborted "attempt to add with overflow", r.gas, e.kept, .done⟩
      else (routine r.input).run (e.frameHost r.callType) f r.gas e.kept := by
  have hcallee := callee_of_stateful hactive hframe e.world.state.accounts
  change e.reached r = _ at hcallee
  rw [hcallee]
  split <;> rfl

theorem handling_reached {routine : Bytes → Program Bytes} {f : Frame}
    (hactive : e.setting.active.get? r.target = some (.stateful routine))
    (hframe : r.frame? = some f) (hdepth : e.context.depth + 1 < CallContext.depthLimit) :
    (e.reached r).1 = .entered f := by
  have hcallee := callee_of_stateful hactive hframe e.world.state.accounts
  change e.reached r = _ at hcallee
  rw [hcallee, if_neg (Nat.not_le.mpr hdepth)]

/-- Where what is active is a leaf, the failure of a call takes back all that was done. -/
theorem accounts_dispatch_of_error (hleaf : ∀ routine,
      e.setting.active.get? r.target = some (.stateful routine) → ∀ input,
        (routine input).Leaf fun o => o.handlesSnapshots = false)
    {error : CallError} {left : Gas}
    (herror : (e.dispatch r).record.ending = .returned ⟨.error error, left⟩) :
    (e.dispatch r).world.state.accounts = e.world.state.accounts :=
  (dispatch_atomic _ _ _ _ _ _ herror (dispatch_settlesOwn_of_leaf hleaf _ _ _)).undone error rfl

/-- Two calls of a leaf agree if their callees do. -/
theorem agrees_dispatch (hdepth : e.context.depth ≤ e.setting.maxDepth)
    (hleaf : ∀ routine, e.setting.active.get? r.target = some (.stateful routine) → ∀ input,
      (routine input).Leaf fun o => o.handlesSnapshots = false)
    (htarget : r'.target = r.target) (hr : r.Unmoved e.world.state.accounts)
    (hr' : r'.Unmoved e.world.state.accounts) (hreached : (e.reached r).2.Alike (e.reached r').2) :
    (e.dispatch r).Agrees (e.dispatch r') := by
  have hending : (e.dispatch r).record.ending = (e.dispatch r').record.ending := by
    rw [ending_dispatch hdepth hr, ending_dispatch hdepth hr', hreached.settled]
  refine ⟨hending, ?_⟩
  by_cases hfailed : ∃ error left, (e.dispatch r).record.ending = .returned ⟨.error error, left⟩
  · obtain ⟨error, left, herror⟩ := hfailed
    rw [accounts_dispatch_of_error hleaf herror,
      accounts_dispatch_of_error (htarget ▸ hleaf) (hending ▸ herror)]
  · have hok : ∀ error, (e.reached r).2.ending ≠ .returned (.error error) := by
      rw [ending_dispatch hdepth hr, Run.failed_iff] at hfailed
      exact fun error herror => hfailed ⟨error, herror⟩
    have hok' : ∀ error, (e.reached r').2.ending ≠ .returned (.error error) := by
      rw [hending, ending_dispatch hdepth hr', Run.failed_iff] at hfailed
      exact fun error herror => hfailed ⟨error, herror⟩
    rw [accounts_dispatch hdepth hr hok, accounts_dispatch hdepth hr' hok', hreached.accounts hok]

end Engine

end PrecompileHost
