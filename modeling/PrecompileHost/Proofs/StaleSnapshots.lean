import PrecompileHost.Proofs.Hindsight

/-!
Snapshots that abandoned calls have left behind. A call that is abandoned settles nothing, so its
snapshots stay on the stack, and those of later calls are numbered from above them. That is all
there is to it: where routines handle no snapshots themselves, every call goes on top of a stack as
it goes on an empty one, answer by answer, and what it goes back to is its own snapshot. The stack
is kept beneath throughout.
-/

namespace PrecompileHost

/-! ### On top of a stack -/

/-- The state with the snapshots `below` beneath its own. -/
def State.above (t : State) (below : List Accounts) : State :=
  { t with snapshots := below ++ t.snapshots }

def World.above (w : World) (below : List Accounts) : World :=
  { w with state := w.state.above below }

def CallRecord.above (r : CallRecord) (below : List Accounts) : CallRecord :=
  { r with found := r.found.above below, left := r.left.above below }

/-- The transcript with `below` beneath the snapshots of every state on record. What was performed,
and how it was answered, stays. -/
def Trace.above (below : List Accounts) : Trace → Trace
  | .done => .done
  | .performed o answer rest => .performed o answer (rest.above below)
  | .declined c e rest => .declined c e (rest.above below)
  | .called call body rest => .called (call.above below) (body.above below) (rest.above below)

def Run.above {α : Type} (run : Run α) (below : List Accounts) : Run α :=
  { run with trace := run.trace.above below, world := run.world.above below }

def Dispatched.above (d : Dispatched) (below : List Accounts) : Dispatched :=
  { record := d.record.above below, body := d.body.above below, world := d.world.above below }

@[simp] theorem Dispatched.ending_above (d : Dispatched) (below : List Accounts) :
    (d.above below).record.ending = d.record.ending := rfl

def Attempt.above (a : Attempt) (below : List Accounts) : Attempt :=
  match a with
  | .declined e => .declined e
  | .aborted m gas d => .aborted m gas (d.above below)
  | .returned result gas d => .returned result gas (d.above below)

namespace State

variable (t : State) (below : List Accounts) (id : Nat)

@[simp] theorem accounts_above : (t.above below).accounts = t.accounts := rfl

@[simp] theorem snapshots_above : (t.above below).snapshots = below ++ t.snapshots := rfl

theorem snapshot_above : (t.above below).snapshot.2 = t.snapshot.2.above below := by
  simp [snapshot, above]

/-- Counted from above the stack, a number means the same snapshot. -/
theorem revertTo_above :
    (t.above below).revertTo (below.length + id) = (t.revertTo id).above below := by
  have hlive : (below ++ t.snapshots)[below.length + id]? = t.snapshots[id]? := by
    rw [List.getElem?_append_right (Nat.le_add_right _ _), Nat.add_sub_cancel_left]
  have hkept : (below ++ t.snapshots).take (below.length + id) =
      below ++ t.snapshots.take id := by
    rw [List.take_length_add_append]
  unfold revertTo
  rw [snapshots_above, hlive, hkept]
  cases t.snapshots[id]? <;> rfl

theorem commit_above :
    (t.above below).commit (below.length + id) = (t.commit id).above below := by
  unfold commit
  rw [snapshots_above, List.take_length_add_append]
  rfl

end State

namespace Mutation

theorem perform?_above (t : State) (result : Option Accounts) (below : List Accounts) :
    perform? (t.above below) result =
      ((perform? t result).1, (perform? t result).2.above below) := by
  cases result <;> rfl

/-- A write of accounts looks at no snapshots. -/
theorem apply_above {m : Mutation} (hm : m.isSnapshotControl = false) (t : State)
    (below : List Accounts) :
    m.apply (t.above below) = ((m.apply t).1, (m.apply t).2.above below) := by
  cases m with
  | createAccount | setBalance | setNonce | setStorage => rfl
  | credit a amount => exact perform?_above t (t.accounts.credit? a amount) below
  | debit a amount => exact perform?_above t (t.accounts.debit? a amount) below
  | snapshot | revertTo | commit => cases hm

end Mutation

/-! ### Runs on top of a stack -/

section

variable {h : Host} {below : List Accounts}

theorem Host.perform_above {o : Operation} (ho : o.handlesSnapshots = false) (f : Frame)
    (gas : Gas) (w : World) :
    h.perform f gas (w.above below) o =
      ((h.perform f gas w o).1, (h.perform f gas w o).2.1,
        (h.perform f gas w o).2.2.above below) := by
  cases o with
  | write m =>
    change m.isSnapshotControl = false at ho
    unfold perform
    dsimp only
    split
    · rfl
    · change (some (m.apply (w.state.above below)).1, gas,
        { w with state := (m.apply (w.state.above below)).2 }) = _
      rw [Mutation.apply_above ho]
      rfl
  | useGas amount =>
    unfold perform
    dsimp only
    split <;> rfl
  | observe | chain | read | invalidate | log => rfl

variable (hdispatch : ∀ r w, h.dispatch r (w.above below) = (h.dispatch r w).above below)

include hdispatch

theorem Host.attempt_above (f : Frame) (gas : Gas) (w : World) (c : NestedCall) :
    h.attempt f gas (w.above below) c = (h.attempt f gas w c).above below := by
  unfold attempt
  cases h.reserve gas c with
  | error e => rfl
  | ok left =>
    dsimp only
    rw [hdispatch, Dispatched.ending_above]
    cases (h.dispatch (c.request f left) w).record.ending with
    | aborted m => rfl
    | returned outcome => rfl

/-- A routine that handles no snapshots runs on top of a stack as it runs without. -/
theorem Program.run_above {α : Type} {p : Program α}
    (hp : p.Only fun o => o.handlesSnapshots = false) (f : Frame) (gas : Gas) (w : World) :
    p.run h f gas (w.above below) = (p.run h f gas w).above below := by
  induction p generalizing gas w with
  | pure | fail | abort => rfl
  | perform o next ih =>
    rw [run_perform, run_perform, Host.perform_above hp.1]
    dsimp only
    rw [ih _ (hp.2 _)]
    rfl
  | call c next ih =>
    have hattempt := Host.attempt_above hdispatch f gas w c
    cases hmade : h.attempt f gas w c with
    | declined e =>
      rw [hmade] at hattempt
      rw [run_call_of_declined _ _ _ _ _ hattempt, run_call_of_declined _ _ _ _ _ hmade,
        ih _ (hp _)]
      rfl
    | aborted m left d =>
      rw [hmade] at hattempt
      rw [run_call_of_aborted _ _ _ _ _ hattempt, run_call_of_aborted _ _ _ _ _ hmade]
      rfl
    | returned result left d =>
      rw [hmade] at hattempt
      rw [run_call_of_returned _ _ _ _ _ hattempt, run_call_of_returned _ _ _ _ _ hmade]
      change ((next result).run h f left (d.world.above below)).mapTrace _ = _
      rw [ih _ (hp _)]
      rfl

end

/-! ### Calls on top of a stack -/

/-- The call's own snapshot is counted from above the stack, so it settles to the same. -/
theorem Dispatched.settle_above (r : Request) (c : CallContext) (id : Nat) (found : State)
    (handling : Handling) (callee : Run Bytes) (below : List Accounts) :
    settle r c (below.length + id) (found.above below) handling (callee.above below) =
      (settle r c id found handling callee).above below := by
  obtain ⟨ending, gas, w, trace⟩ := callee
  cases ending with
  | aborted m => rfl
  | returned result =>
    cases result with
    | ok output =>
      rw [settle_of_ok _ _ _ _ _ _ rfl, settle_of_ok _ _ _ _ _ _ rfl]
      change Dispatched.mk _ _ { w with state := (w.state.above below).commit _ } = _
      rw [State.commit_above]
      rfl
    | error e =>
      rw [settle_of_error _ _ _ _ _ _ rfl, settle_of_error _ _ _ _ _ _ rfl]
      change Dispatched.mk _ _ { w with state := (w.state.above below).revertTo _ } = _
      rw [State.revertTo_above]
      rfl

namespace Request

theorem fund?_above (r : Request) (t : State) (below : List Accounts) :
    r.fund? (t.above below) = (r.fund? t).map (·.above below) := by
  unfold fund?
  rw [State.accounts_above]
  cases r.callType with
  | call => cases t.accounts.transfer? r.caller.address r.target r.value <;> rfl
  | callCode | delegateCall | staticCall => rfl

variable {s : Setting} {nested : CallContext → Request → World → Dispatched}
  {below : List Accounts} (hactive : s.active.Only fun _ o => o.handlesSnapshots = false)
  (hnested : ∀ c r w, nested c r (w.above below) = (nested c r w).above below)

include hactive hnested

theorem runTarget_above (r : Request) (c : CallContext) (w : World) :
    r.runTarget s nested c (w.above below) =
      ((r.runTarget s nested c w).1, (r.runTarget s nested c w).2.above below) := by
  unfold runTarget
  cases htarget : s.active.get? r.target with
  | none => rfl
  | some p =>
    cases p with
    | stateless price run =>
      dsimp only
      split <;> rfl
    | stateful routine =>
      dsimp only [enter]
      cases r.frame? with
      | none => rfl
      | some f =>
        dsimp only
        split
        · rfl
        · rw [Program.run_above (hnested _) (hactive _ routine htarget r.input)]

theorem execute_above (r : Request) (c : CallContext) (w : World) :
    r.execute s nested c (w.above below) = (r.execute s nested c w).above below := by
  by_cases hbalance : w.state.accounts.balance r.caller.address < r.carriedValue
  · rw [execute_of_unfunded hbalance, execute_of_unfunded (w := w.above below) hbalance]
    rfl
  · have hlength : (w.above below).state.snapshots.length =
        below.length + w.state.snapshots.length := List.length_append
    have hsnapshot : (w.above below).state.snapshot.2 = w.state.snapshot.2.above below :=
      w.state.snapshot_above below
    have hfund := r.made.fund?_above w.state.snapshot.2 below
    rw [← hsnapshot] at hfund
    cases hfound : r.made.fund? w.state.snapshot.2 with
    | none =>
      rw [hfound] at hfund
      rw [execute_of_overfull hbalance hfound,
        execute_of_overfull (w := w.above below) hbalance hfund, hlength, hsnapshot,
        ← Dispatched.settle_above]
      rfl
    | some found =>
      rw [hfound] at hfund
      have hrun := runTarget_above hactive hnested r.made c { w with state := found }
      have hworld : { w.above below with state := found.above below } =
          World.above { w with state := found } below := rfl
      rw [execute_of_funded hbalance hfound,
        execute_of_funded (w := w.above below) hbalance hfund, hlength, hworld, hrun,
        Dispatched.settle_above]

end Request

/-- Where no active routine handles snapshots, a call goes on top of a stack as it goes without. -/
theorem dispatch_above {s : Setting}
    (hactive : s.active.Only fun _ o => o.handlesSnapshots = false) (levels : Nat)
    (c : CallContext) (r : Request) (w : World) (below : List Accounts) :
    dispatch s levels c r (w.above below) = (dispatch s levels c r w).above below := by
  induction levels generalizing c r w with
  | zero => rfl
  | succ levels ih => exact Request.execute_above hactive ih r c w

/-! ### Engines with a stack -/

namespace Engine

/-- The snapshots that are live between the engine's steps. -/
def stack (e : Engine) : List Accounts :=
  e.world.state.snapshots

def above (e : Engine) (below : List Accounts) : Engine :=
  { e with world := e.world.above below }

/-- The engine without any live snapshots. -/
def cleared (e : Engine) : Engine :=
  { e with world.state.snapshots := [] }

/-- A step goes alike on two engines that may have different stacks: it makes the same call on top
of either, which has the same answer, and all but the stacks is the same afterwards. What has come
onto the stacks is the same too, and it is nothing unless the call was abandoned. -/
structure StepsAlike (e e' : Engine) (s : Step) : Prop where
  made : ∃ call? : Option Dispatched,
    e.made? s = call?.map (·.above e.stack) ∧ e'.made? s = call?.map (·.above e'.stack)
  answer : ∀ origin target input gas value, s = .transact origin target input gas value →
    (e'.transact origin target input gas value).ending =
      (e.transact origin target input gas value).ending
  after : (e'.step s).cleared = (e.step s).cleared
  leaked : ∃ leaked, (e.step s).stack = e.stack ++ leaked ∧
    (e'.step s).stack = e'.stack ++ leaked ∧
      ((∀ d m, e.made? s = some d → d.record.ending ≠ .aborted m) → leaked = [])

variable (e : Engine) (below : List Accounts)

@[simp] theorem stack_above : (e.above below).stack = below ++ e.stack := rfl

@[simp] theorem cleared_above : (e.above below).cleared = e.cleared := rfl

theorem above_cleared : e.cleared.above e.stack = e := by
  unfold above World.above State.above cleared stack
  simp only [List.append_nil]

variable {e} (hactive : e.setting.active.Only fun _ o => o.handlesSnapshots = false)

include hactive

theorem dispatch_above (r : Request) : (e.above below).dispatch r = (e.dispatch r).above below :=
  PrecompileHost.dispatch_above hactive _ _ _ _ _

theorem transact_above (origin target : Address) (input : Bytes) (gas : Gas) (value : Word) :
    (e.above below).transact origin target input gas value =
      { call := (e.transact origin target input gas value).call.above below
        engine := (e.transact origin target input gas value).engine.above below } := by
  have hcall := dispatch_above (e := e.beginTransaction origin) below hactive
    { callType := .call, caller := .account origin, target, input, gas, value }
  change ((e.above below).beginTransaction origin).call (.account origin) target input gas
    value = ((e.beginTransaction origin).call (.account origin) target input gas value).above
      below at hcall
  unfold transact
  dsimp only
  rw [hcall, Dispatched.ending_above]
  cases ((e.beginTransaction origin).call (.account origin) target input gas value).record.ending
    with
  | aborted m => rfl
  | returned outcome => rfl

theorem made?_above (s : Step) :
    (e.above below).made? s = (e.made? s).map fun d => d.above below := by
  cases s with
  | call r => exact congrArg some (dispatch_above below hactive r)
  | transact origin target input gas value =>
    exact congrArg (fun t : Transaction => some t.call) (transact_above below hactive ..)
  | enterBlock | enterContext => rfl

theorem step_above (s : Step) : (e.above below).step s = (e.step s).above below := by
  cases s with
  | call r => exact congrArg (e.above below).after (dispatch_above below hactive r)
  | transact origin target input gas value =>
    exact congrArg Transaction.engine (transact_above below hactive ..)
  | enterBlock | enterContext => rfl

theorem run_above (steps : List Step) :
    (e.above below).run steps = (e.run steps).above below := by
  induction steps generalizing e with
  | nil => rfl
  | cons s steps ih =>
    rw [run, step_above below hactive]
    exact ih (by rwa [active_step])

/-- A step leaves no snapshots behind unless its call is abandoned. -/
theorem stack_step {s : Step}
    (hreturns : ∀ d m, e.made? s = some d → d.record.ending ≠ .aborted m) :
    (e.step s).stack = e.stack := by
  cases hmade : e.made? s with
  | none =>
    cases s with
    | call | transact => cases hmade
    | enterBlock | enterContext => rfl
  | some d =>
    cases hending : d.record.ending with
    | aborted m => exact absurd hending (hreturns d m hmade)
    | returned outcome =>
      obtain ⟨-, hstate, -⟩ := dispatch_of_made? hmade
      unfold stack
      rw [hstate, (atomic_of_made? hactive hmade hending).snapshots]

theorem stepsAlike_above (hempty : e.stack = []) (below' : List Accounts) (s : Step) :
    (e.above below).StepsAlike (e.above below') s := by
  have hstack : ∀ below, (e.above below).stack = below := by
    intro below
    rw [stack_above, hempty, List.append_nil]
  refine ⟨⟨e.made? s, ?_, ?_⟩, ?_, ?_, (e.step s).stack, ?_, ?_, ?_⟩
  · rw [hstack, made?_above _ hactive]
  · rw [hstack, made?_above _ hactive]
  · intro origin target input gas value _
    rw [transact_above _ hactive, transact_above _ hactive]
    rfl
  · rw [step_above _ hactive, step_above _ hactive, cleared_above, cleared_above]
  · rw [hstack, step_above _ hactive, stack_above]
  · rw [hstack, step_above _ hactive, stack_above]
  · intro hreturns
    rw [stack_step hactive, hempty]
    intro d m hmade
    have habove := hreturns (d.above below) m
    rw [made?_above _ hactive, hmade] at habove
    exact habove rfl

/-- What a stack holds makes no difference to a step. -/
theorem stepsAlike_of_cleared {e' : Engine} (hsame : e'.cleared = e.cleared) (s : Step) :
    e.StepsAlike e' s := by
  have halike := stepsAlike_above (e := e.cleared) e.stack hactive rfl e'.stack s
  rwa [above_cleared, ← hsame, above_cleared] at halike

theorem cleared_run (steps : List Step) :
    (e.run steps).cleared = (e.cleared.run steps).cleared := by
  have habove := run_above (e := e.cleared) e.stack hactive steps
  rw [above_cleared] at habove
  rw [habove, cleared_above]

omit hactive in
/-- Two engines that differ in their stacks alone go through any steps alike, and so does an engine
and one with the same accounts and no snapshots, whatever abandoned calls have left behind on the
way. In particular a call that fails later goes back to precisely what it started from. -/
theorem leaked_snapshots_harmless {e e' : Engine} (hsame : e'.cleared = e.cleared)
    (hactive : e.setting.active.Only fun _ o => o.handlesSnapshots = false) (steps : List Step)
    (s : Step) :
    (e.run steps).StepsAlike (e'.run steps) s ∧
      (e.run steps).StepsAlike (e.run steps).cleared s ∧
      ∀ d error left, (e.run steps).made? s = some d →
        d.record.ending = .returned ⟨.error error, left⟩ →
          ((e.run steps).step s).world.state = (e.run steps).world.state := by
  have hran : (e.run steps).setting.active.Only fun _ o => o.handlesSnapshots = false := by
    rwa [active_run]
  have hactive' : e'.setting.active.Only fun _ o => o.handlesSnapshots = false := by
    have hsetting : e'.cleared.setting = e.cleared.setting := by rw [hsame]
    change e'.setting = e.setting at hsetting
    rwa [hsetting]
  have hcleared : (e.run steps).cleared.cleared = (e.run steps).cleared := rfl
  refine ⟨stepsAlike_of_cleared hran ?_ s, stepsAlike_of_cleared hran hcleared s, ?_⟩
  · rw [cleared_run hactive, cleared_run hactive', hsame]
  · intro d error left hmade hfailed
    obtain ⟨-, hstate, -⟩ := dispatch_of_made? hmade
    rw [hstate]
    exact (atomic_of_made? hran hmade hfailed).state_of_error rfl

end Engine

namespace Wreckage

/-- Pays another one, which is abandoned with two snapshots on the stack. -/
def wrecker (_ : Bytes) : Program Bytes := do
  discard <| Program.callOut { target := 0xb0, input := [], gas := 10, value := 1 }
  pure []

def faulty (_ : Bytes) : Program Bytes := do
  Program.write (.setNonce 0xb0 7)
  .abort "fault"

/-- Pays another one and fails. -/
def debtor (_ : Bytes) : Program Bytes := do
  discard <| Program.callOut { target := 0xc1, input := [], gas := 10, value := 2 }
  .fail .headerUnavailable

def registered : Registry :=
  WordMap.ofList [(0xa0, .stateful wrecker), (0xa1, .stateful debtor), (0xb0, .stateful faulty)]

/-- An engine with a snapshot that is stale already. -/
def engine : Engine :=
  Engine.create
    { accounts := (∅ : Accounts).setBalance 0xc0 10
      snapshots := [(∅ : Accounts).setBalance 0xc0 1000] } registered

theorem registered_only : registered.Only fun _ o => o.handlesSnapshots = false := by
  refine ((Registry.only_empty.insert ?_).insert ?_).insert ?_
  · exact fun _ _ => trivial
  · exact fun _ _ => trivial
  · exact fun _ => ⟨rfl, fun answer => by cases answer <;> trivial⟩

/-- The call that is abandoned, and keeps what it has paid. -/
def wreck : Engine.Step :=
  .transact 0xc0 0xa0 [] 100 3

def bounce : Engine.Step :=
  .transact 0xc0 0xa1 [] 100 4

/-- After the wreck there are three snapshots on the stack, all of them stale. The next transaction
fails, and its payments are undone but not those before. -/
theorem engine_leaked_snapshots_harmless :
    (engine.run [wreck]).stack.length = 3 ∧
      (engine.run [wreck]).StepsAlike (engine.cleared.run [wreck]) bounce ∧
      (engine.run [wreck]).StepsAlike (engine.run [wreck]).cleared bounce ∧
      ((engine.run [wreck]).step bounce).world.state = (engine.run [wreck]).world.state ∧
      (engine.run [wreck]).world.state.accounts.balance 0xc0 = 7 := by
  have hcleared : engine.cleared.cleared = engine.cleared := rfl
  obtain ⟨hother, hempty, hfailed⟩ := Engine.leaked_snapshots_harmless hcleared
    (registered_only.activate _ _) [wreck] bounce
  exact ⟨rfl, hother, hempty, hfailed _ _ _ rfl rfl, by decide +kernel⟩

end Wreckage

end PrecompileHost
