import PrecompileHost.Engine
import PrecompileHost.Proofs.Frames

/-!
Who frames run as. Three notions of address meet here: the ones a call was made with, the ones that
contract code would see in its place, and the ones a delegate has inherited. At the root of a call
tree the call type decides between them (`Request.Opens`). Below the root they coincide: a frame
only makes plain calls, and what it may choose is whether they are its own or its caller's
(`Frame.sender`). Whoever is the caller in that sense is debited the value, and it is the target
that is credited.
-/

namespace PrecompileHost

/-! ### At the root -/

/-- The frame that a request opens. -/
inductive Request.Opens (r : Request) : Frame → Prop
  | call (htype : r.callType = .call) : r.Opens
      { contract :=
          { caller := r.caller.address, address := r.target, value := r.value, gas := r.gas }
        callType := .call
        rawCaller := r.caller.address
        rawSelf := r.target }
  | staticCall (htype : r.callType = .staticCall) : r.Opens
      { contract := { caller := r.caller.address, address := r.target, value := 0, gas := r.gas }
        callType := .staticCall
        rawCaller := r.caller.address
        rawSelf := r.target }
  | callCode (htype : r.callType = .callCode) : r.Opens
      { contract :=
          { caller := r.caller.address, address := r.caller.address, value := r.value,
            gas := r.gas }
        callType := .callCode
        rawCaller := r.caller.address
        rawSelf := r.target }
  | delegateCall {parent : Contract} (htype : r.callType = .delegateCall)
      (hcaller : r.caller = .frame parent) : r.Opens
      { contract :=
          { caller := parent.caller, address := parent.address, value := parent.value,
            gas := r.gas, isDelegate := true }
        callType := .delegateCall
        rawCaller := parent.address
        rawSelf := r.target }

theorem Request.frame?_eq_some_iff {r : Request} {f : Frame} :
    r.frame? = some f ↔ r.Opens f := by
  obtain ⟨callType, caller, target, input, gas, value⟩ := r
  constructor
  · intro h
    cases callType with
    | call =>
      cases h
      exact .call rfl
    | staticCall =>
      cases h
      exact .staticCall rfl
    | callCode =>
      cases h
      exact .callCode rfl
    | delegateCall =>
      cases caller with
      | account a => cases h
      | frame parent =>
        cases h
        exact .delegateCall rfl rfl
  · rintro (⟨⟨⟩⟩ | ⟨⟨⟩⟩ | ⟨⟨⟩⟩ | ⟨⟨⟩, ⟨⟩⟩) <;> rfl

theorem Request.frame?_made (r : Request) : r.made.frame? = r.frame? := by
  obtain ⟨callType, caller, target, input, gas, value⟩ := r
  cases callType <;> rfl

theorem Request.made_of_call {r : Request} (h : r.callType = .call) : r.made = r := by
  obtain ⟨callType, caller, target, input, gas, value⟩ := r
  cases h
  rfl

/-! ### Below the root -/

/-- In whose name a frame makes a nested call: in its own, or where it proxies, in that of its
caller. The caller that a delegate has inherited is not proxied; the account that made the delegate
call is. -/
def Frame.sender (f : Frame) (call : NestedCall) : Address :=
  if .callerProxying ∈ call.options then
    if f.callType = .delegateCall then f.rawCaller else f.contract.caller
  else f.contract.address

/-- The frame that a nested call of `f` opens. -/
def Frame.child (f : Frame) (call : NestedCall) : Frame :=
  { contract :=
      { caller := f.sender call, address := call.target, value := call.value, gas := call.gas,
        isDelegate := false }
    callType := .call
    rawCaller := f.sender call
    rawSelf := call.target }

theorem NestedCall.address_caller (call : NestedCall) (f : Frame) (gas : Gas) :
    (call.caller f gas).address = f.sender call := by
  unfold caller Frame.sender
  by_cases hproxy : CallOption.callerProxying ∈ call.options
  · rw [if_pos hproxy, if_pos hproxy]
    cases f.callType <;> rfl
  · rw [if_neg hproxy, if_neg hproxy]
    rfl

theorem NestedCall.opens_request {call : NestedCall} {f child : Frame} {gas : Gas}
    (h : (call.request f gas).Opens child) : child = f.child call := by
  have hcaller := call.address_caller f gas
  cases h with
  | call =>
    unfold Frame.child
    rw [← hcaller]
    rfl
  | staticCall htype | callCode htype | delegateCall htype => cases htype

/-- `value` was taken from `source` and given to `target`; where there is none, nothing was
done. -/
def Accounts.Paid (as : Accounts) (source target : Address) (value : Word) (bs : Accounts) :
    Prop :=
  if value = 0 then bs = as
  else ∃ debited, as.debit? source value = some debited ∧ debited.credit? target value = some bs

theorem Accounts.paid_of_transfer? {as bs : Accounts} {source target : Address} {value : Word}
    (h : as.transfer? source target value = some bs) : as.Paid source target value bs := by
  unfold transfer? at h
  unfold Paid
  split at h
  · rename_i hvalue
    rw [if_pos hvalue]
    exact (Option.some.inj h).symm
  · rename_i hvalue
    rw [if_neg hvalue]
    exact Option.bind_eq_some_iff.mp h

/-- The value of the call, if it had any, was moved, and the callee dealt with. -/
def Handling.isReached : Handling → Bool
  | .tooDeep | .unfunded | .overfull => false
  | .codeless | .underpaid _ | .stateless _ | .parentless | .uncountable | .entered _ => true

theorem Request.paid_of_fund? {r : Request} {before found : State}
    (h : r.made.fund? before.snapshot.2 = some found) :
    before.accounts.Paid r.caller.address r.target r.movedValue found.accounts := by
  rw [fund?_made] at h
  obtain ⟨as, htransfer, rfl⟩ := Option.map_eq_some_iff.mp h
  exact Accounts.paid_of_transfer? htransfer

/-- A call made in state `before` has taken its value from its caller to its target by the time
that its callee is dealt with. -/
theorem paid_dispatch (s : Setting) (levels : Nat) (c : CallContext) (r : Request) (w : World) :
    (dispatch s levels c r w).record.handling.isReached = true →
      w.state.accounts.Paid r.caller.address r.target r.movedValue
        (dispatch s levels c r w).record.found.accounts := by
  refine dispatch_induction (P := fun _ r w d => d.record.handling.isReached = true →
    w.state.accounts.Paid r.caller.address r.target r.movedValue d.record.found.accounts)
    ?tooDeep ?executed levels c r w
  case tooDeep =>
    intro c r w hreached
    cases hreached
  case executed =>
    intro levels _ c r w d hd hreached
    cases hd with
    | unfunded => cases hreached
    | overfull =>
      rw [Dispatched.handling_settle] at hreached
      cases hreached
    | handled hbalance hfund hhandled =>
      rw [Dispatched.found_settle]
      exact Request.paid_of_fund? hfund

/-- What is recorded as asked for is what was asked for, as far as the call type goes. -/
theorem request_dispatch (s : Setting) (levels : Nat) (c : CallContext) (r : Request)
    (w : World) :
    (dispatch s levels c r w).record.request = r ∨
      (dispatch s levels c r w).record.request = r.made := by
  refine dispatch_induction (P := fun _ r _ d => d.record.request = r ∨ d.record.request = r.made)
    ?tooDeep ?executed levels c r w
  case tooDeep =>
    intro c r w
    exact .inl rfl
  case executed =>
    intro levels _ c r w d hd
    cases hd with
    | unfunded => exact .inr rfl
    | overfull | handled => exact .inr (Dispatched.request_settle ..)

theorem opens_dispatch {s : Setting} {levels : Nat} {c : CallContext} {r : Request} {w : World}
    {f : Frame} (h : (dispatch s levels c r w).record.handling = .entered f) : r.Opens f := by
  obtain ⟨routine, _, _, hran⟩ := (staged_dispatch s levels c r w).ran f h
  refine Request.frame?_eq_some_iff.mp ?_
  rcases request_dispatch s levels c r w with hrequest | hrequest
  · rw [← hrequest]
    exact hran.frame
  · rw [← Request.frame?_made, ← hrequest]
    exact hran.frame

/-! ### What a frame does -/

/-- What an operation shows of who frame `f` runs as, in a transaction of `origin`. -/
def Operation.ShowsIdentity (origin : Address) (f : Frame) : (o : Operation) → o.Answer → Prop
  | .observe, seen =>
    seen.origin = origin ∧ seen.callType = f.callType ∧
      seen.contract = { f.contract with gas := seen.contract.gas } ∧
      seen.rawCaller = f.rawCaller ∧ seen.rawSelf = f.rawSelf
  | .chain, _ | .useGas _, _ | .read _, _ | .write _, _ | .invalidate _, _ | .log _, _ => True

/-- The state after an operation. -/
def Operation.next : (o : Operation) → o.Answer → State → State
  | .write m, some _, t => (m.apply t).2
  | _, _, t => t

theorem Host.showsIdentity_perform (h : Host) (f : Frame) (gas : Gas) (w : World)
    (o : Operation) : o.ShowsIdentity h.setting.origin f (h.perform f gas w o).1 := by
  cases o with
  | observe => exact ⟨rfl, rfl, rfl, rfl, rfl⟩
  | chain | useGas | read | write | invalidate | log => trivial

theorem Host.state_perform (h : Host) (f : Frame) (gas : Gas) (w : World) (o : Operation) :
    (h.perform f gas w o).2.2.state = o.next (h.perform f gas w o).1 w.state := by
  cases o with
  | useGas amount =>
    unfold perform
    dsimp only
    split <;> rfl
  | write m =>
    unfold perform
    dsimp only
    split <;> rfl
  | observe | chain | read | invalidate | log => rfl

/-- The record is of a nested call that frame `f` has made in state `before`. -/
structure CallRecord.MadeBy (r : CallRecord) (f : Frame) (before : State) (call : NestedCall) :
    Prop where
  callType : r.request.callType = .call
  caller : r.request.caller.address = f.sender call
  target : r.request.target = call.target
  input : r.request.input = call.input
  gas : r.request.gas = call.gas
  value : r.request.value = call.value
  opens : ∀ child, r.handling = .entered child → child = f.child call
  pays : r.handling.isReached = true →
    before.accounts.Paid (f.sender call) call.target call.value r.found.accounts

theorem dispatch_madeBy (s : Setting) (levels : Nat) (c : CallContext) (call : NestedCall)
    (f : Frame) (gas : Gas) (w : World) :
    (dispatch s levels c (call.request f gas) w).record.MadeBy f w.state call := by
  have hrequest : (dispatch s levels c (call.request f gas) w).record.request =
      call.request f gas := by
    have h := request_dispatch s levels c (call.request f gas) w
    rwa [Request.made_of_call rfl, or_self] at h
  have hpaid := paid_dispatch s levels c (call.request f gas) w
  have hcaller : (call.request f gas).caller.address = f.sender call := call.address_caller f gas
  rw [hcaller] at hpaid
  constructor
  case caller => rw [hrequest, hcaller]
  case opens => exact fun child hchild => NestedCall.opens_request (opens_dispatch hchild)
  case pays => exact hpaid
  all_goals
    rw [hrequest]
    rfl

/-- Frame `f`, come to state `before` with `p` to run, has gone on as the transcript tells: what it
has seen is who it runs as, and the calls in it are those that `p` has made, each from the state
that what came before has led to. -/
inductive Program.Recounts {α : Type} (origin : Address) (f : Frame) :
    Program α → State → Trace → Prop
  | pure (a : α) (before : State) : Recounts origin f (.pure a) before .done
  | fail (e : CallError) (before : State) : Recounts origin f (.fail e) before .done
  | abort (m : String) (before : State) : Recounts origin f (.abort m) before .done
  | performed {o : Operation} {next : o.Answer → Program α} {before : State} {answer : o.Answer}
      {rest : Trace} (hshows : o.ShowsIdentity origin f answer)
      (hrest : Recounts origin f (next answer) (o.next answer before) rest) :
      Recounts origin f (.perform o next) before (.performed o answer rest)
  | declined {call : NestedCall} {next : CallResult → Program α} {before : State} {e : CallError}
      {rest : Trace} (hrest : Recounts origin f (next (.error e)) before rest) :
      Recounts origin f (.call call next) before (.declined call e rest)
  | aborted {call : NestedCall} {next : CallResult → Program α} {before : State}
      {record : CallRecord} {body : Trace} {m : String} (hmade : record.MadeBy f before call)
      (hending : record.ending = .aborted m) :
      Recounts origin f (.call call next) before (.called record body .done)
  | returned {call : NestedCall} {next : CallResult → Program α} {before : State}
      {record : CallRecord} {body rest : Trace} {outcome : Outcome}
      (hmade : record.MadeBy f before call) (hending : record.ending = .returned outcome)
      (hrest : Recounts origin f (next outcome.result) (record.resume before) rest) :
      Recounts origin f (.call call next) before (.called record body rest)

theorem Program.recounts_run {α : Type} (s : Setting) (levels : Nat) (c : CallContext) (f : Frame)
    (p : Program α) (gas : Gas) (w : World) :
    p.Recounts s.origin f w.state (p.run (s.host levels c) f gas w).trace := by
  induction p generalizing gas w with
  | pure a => exact .pure a _
  | fail e => exact .fail e _
  | abort m => exact .abort m _
  | perform o next ih =>
    rw [run_perform]
    have hrest := ih ((s.host levels c).perform f gas w o).1
      ((s.host levels c).perform f gas w o).2.1 ((s.host levels c).perform f gas w o).2.2
    rw [Host.state_perform] at hrest
    exact .performed ((s.host levels c).showsIdentity_perform f gas w o) hrest
  | call call next ih =>
    cases hreserve : (s.host levels c).reserve gas call with
    | error e =>
      rw [run_call_of_declined _ _ _ _ _ (Host.attempt_of_reserve_error _ _ _ _ _ hreserve)]
      exact .declined (ih _ _ _)
    | ok left =>
      have hmade := dispatch_madeBy s levels c call f left w
      have hstate := state_dispatch s levels c (call.request f left) w
      cases hending : (dispatch s levels c (call.request f left) w).record.ending with
      | aborted m =>
        rw [run_call_of_aborted _ _ _ _ _ (Host.attempt_of_aborted _ _ _ _ _ hreserve hending)]
        exact .aborted hmade hending
      | returned outcome =>
        rw [run_call_of_returned _ _ _ _ _ (Host.attempt_of_returned _ _ _ _ _ hreserve hending)]
        have hrest := ih outcome.result (Gas.addSaturating left outcome.gasLeft)
          (dispatch s levels c (call.request f left) w).world
        rw [hstate] at hrest
        exact .returned hmade hending hrest

/-! ### Call trees -/

/-- If the call has opened a frame, it is the one that was asked for, and in it a routine was run
whose calls are made as its identity demands. Where there is no frame, no calls are made. -/
structure CallRecord.Descends (s : Setting) (r : CallRecord) (body : Trace) : Prop where
  framed : ∀ f, r.handling = .entered f → r.request.Opens f ∧
    ∃ routine, s.active.get? r.request.target = some (.stateful routine) ∧
      (routine r.request.input).Recounts s.origin f r.found body
  frameless : (∀ f, r.handling ≠ .entered f) → body = .done

theorem CallRecord.Staged.descends {s : Setting} {r : CallRecord} {body : Trace}
    (h : r.Staged s body) : r.Descends s body where
  framed f hframe := by
    obtain ⟨routine, levels, w, hran⟩ := h.ran f hframe
    refine ⟨Request.frame?_eq_some_iff.mp hran.frame, routine, hran.active, ?_⟩
    rw [hran.body, hran.found]
    exact Program.recounts_run s levels _ f _ _ w
  frameless := h.still

theorem dispatch_descends (s : Setting) (levels : Nat) (c : CallContext) (r : Request)
    (w : World) : (dispatch s levels c r w).EachCall (CallRecord.Descends s) :=
  dispatch_eachCall (fun levels c r w => (staged_dispatch s levels c r w).descends) levels c r w

/-- A call that was asked for in state `before`: the frame at its root is the one that was asked
for and is opened wherever a routine is reached, its value goes from its caller to its target, and
so on below. -/
structure Dispatched.Rooted (d : Dispatched) (s : Setting) (r : Request) (before : State) :
    Prop where
  opens : ∀ f, d.record.handling = .entered f → r.Opens f
  enters : d.record.handling.isReached = true →
    ∀ routine, s.active.get? r.target = some (.stateful routine) → ∀ f, r.Opens f →
      d.record.handling = .entered f ∨ d.record.handling = .uncountable
  pays : d.record.handling.isReached = true →
    before.accounts.Paid r.caller.address r.target r.movedValue d.record.found.accounts
  frames : d.EachCall (CallRecord.Descends s)

/-- Where a routine is active, a call that is reached opens its frame, if the depth of the frame
can be counted. -/
theorem Request.Handled.handling_of_stateful {s : Setting} {levels : Nat} {c : CallContext}
    {r : Request} {w : World} {handling : Handling} {callee : Run Bytes}
    (h : r.Handled s levels c w handling callee) {routine : Bytes → Program Bytes}
    (hactive : s.active.get? r.target = some (.stateful routine)) {f : Frame}
    (hframe : r.frame? = some f) : handling = .entered f ∨ handling = .uncountable := by
  cases h with
  | codeless hnone => simp [hactive] at hnone
  | underpaid hother | stateless hother => simp [hactive] at hother
  | parentless _ hnone => simp [hframe] at hnone
  | uncountable => exact .inr rfl
  | entered _ hsome =>
    rw [hframe] at hsome
    exact .inl (congrArg Handling.entered (Option.some.inj hsome).symm)

theorem dispatch_rooted (s : Setting) (levels : Nat) (c : CallContext) (r : Request) (w : World) :
    (dispatch s levels c r w).Rooted s r w.state where
  opens _ := opens_dispatch
  enters := by
    refine dispatch_induction (P := fun _ r _ d => d.record.handling.isReached = true →
      ∀ routine, s.active.get? r.target = some (.stateful routine) → ∀ f, r.Opens f →
        d.record.handling = .entered f ∨ d.record.handling = .uncountable) ?tooDeep ?executed
      levels c r w
    case tooDeep =>
      intro c r w hreached
      cases hreached
    case executed =>
      intro levels _ c r w d hd hreached routine hactive f hopens
      cases hd with
      | unfunded => cases hreached
      | overfull =>
        rw [Dispatched.handling_settle] at hreached
        cases hreached
      | handled hbalance hfund hhandled =>
        rw [Dispatched.handling_settle]
        refine hhandled.handling_of_stateful hactive ?_
        rw [Request.frame?_made]
        exact Request.frame?_eq_some_iff.mpr hopens
  pays := paid_dispatch s levels c r w
  frames := dispatch_descends s levels c r w

namespace Engine

theorem runAlone_descends (e : Engine) {p : Precompile} {r : Request} {f : Frame}
    (h : (e.runAlone p r).1 = .entered f) :
    r.Opens f ∧ ∃ routine, p = .stateful routine ∧
      (routine r.input).Recounts e.setting.origin f e.world.state (e.runAlone p r).2.trace ∧
        (e.runAlone p r).2.trace.EachCall (CallRecord.Descends e.setting) := by
  cases p with
  | stateless price run => cases h
  | stateful routine =>
    unfold runAlone Request.enter at h ⊢
    cases hframe : r.frame? with
    | none =>
      simp only [hframe] at h
      cases h
    | some f' =>
      simp only [hframe] at h ⊢
      split at h
      · cases h
      · rename_i hdepth
        cases h
        rw [if_neg hdepth]
        refine ⟨Request.frame?_eq_some_iff.mp hframe, routine, rfl, ?_, ?_⟩
        · exact Program.recounts_run e.setting (e.setting.levels (e.context.depth + 1)) _ f _ _ _
        · exact Program.eachCall_run (fun r w => dispatch_descends e.setting _ _ r w) _ _ _

/-- However a call tree is begun, whoever its caller is and whatever its frames do: the frame at
the root is the one that the call type asks for, it is what an observer is shown who asks without
running it, and each frame below sees itself called by the account that its parent has called as,
from which the value has come that it was given. The origin is the same throughout. -/
theorem identities_descend (e : Engine) :
    (∀ r seen, e.observe r = .ok seen ↔
      ∃ f, r.Opens f ∧ seen = f.observe e.setting e.context r.gas) ∧
    (∀ r, (e.dispatch r).Rooted e.setting r e.world.state) ∧
    (∀ origin target input gas value,
      (e.transact origin target input gas value).call.Rooted { e.setting with origin }
        { callType := .call, caller := .account origin, target, input, gas, value }
        e.world.state) ∧
    ∀ p r f, (e.runAlone p r).1 = .entered f →
      r.Opens f ∧ ∃ routine, p = .stateful routine ∧
        (routine r.input).Recounts e.setting.origin f e.world.state (e.runAlone p r).2.trace ∧
          (e.runAlone p r).2.trace.EachCall (CallRecord.Descends e.setting) := by
  refine ⟨fun r seen => ?_, fun r => dispatch_rooted _ _ _ r _, ?_,
    fun p r f => e.runAlone_descends⟩
  · unfold observe
    cases hframe : r.frame? with
    | none =>
      constructor
      · intro h
        cases h
      · rintro ⟨f, hopens, -⟩
        rw [Request.frame?_eq_some_iff.mpr hopens] at hframe
        cases hframe
    | some f =>
      constructor
      · rintro ⟨⟩
        exact ⟨f, Request.frame?_eq_some_iff.mp hframe, rfl⟩
      · rintro ⟨f', hopens, rfl⟩
        rw [Request.frame?_eq_some_iff.mpr hopens] at hframe
        cases hframe
        rfl
  · intro origin target input gas value
    rw [call_transact]
    exact dispatch_rooted _ _ _ _ _

end Engine

namespace Agent

/-- Sends value in its caller's name, who has it sent on in the same name. -/
def agent (_ : Bytes) : Program Bytes := do
  discard <| Program.callOut
    { target := 0xb0, input := [], gas := 500, value := 5, options := [.callerProxying] }
  pure []

def relay (_ : Bytes) : Program Bytes := do
  discard <| Program.callOut
    { target := 0xb1, input := [], gas := 100, value := 2, options := [.callerProxying] }
  pure []

def engine : Engine :=
  Engine.create { accounts := (∅ : Accounts).setBalance 0xd0 10 }
    (WordMap.ofList [(0xa0, .stateful agent), (0xb0, .stateful relay)])

/-- A frame of `0xd0`, which `0xc0` has called, delegates to the agent. -/
def request : Request :=
  { callType := .delegateCall
    caller := .frame { caller := 0xc0, address := 0xd0, value := 9, gas := 2000 }
    target := 0xa0
    input := []
    gas := 1000
    value := 0 }

def frame : Frame :=
  { contract := { caller := 0xc0, address := 0xd0, value := 9, gas := 1000, isDelegate := true }
    callType := .delegateCall
    rawCaller := 0xd0
    rawSelf := 0xa0 }

/-- The agent sees `0xc0` as its caller, and it is `0xd0` that it sends from, as the relay does. -/
theorem engine_identities_descend :
    engine.observe request = .ok (frame.observe engine.setting {} 1000) ∧
      (engine.dispatch request).record.handling = .entered frame ∧
      (engine.dispatch request).EachCall (CallRecord.Descends engine.setting) ∧
      (agent []).Recounts 0 frame engine.world.state
        (engine.runAlone (.stateful agent) request).2.trace ∧
      (engine.dispatch request).world.state.accounts.balance 0xd0 = 3 := by
  obtain ⟨hobserve, hdispatch, -, halone⟩ := Engine.identities_descend engine
  have hopens : request.Opens frame := Request.frame?_eq_some_iff.mp rfl
  have hentered : (engine.dispatch request).record.handling = .entered frame :=
    ((hdispatch request).enters rfl agent rfl frame hopens).resolve_right (by decide +kernel)
  obtain ⟨-, routine, hroutine, hrecounts, -⟩ := halone (.stateful agent) request frame rfl
  cases hroutine
  exact ⟨(hobserve request _).mpr ⟨frame, hopens, rfl⟩, hentered, (hdispatch request).frames,
    hrecounts, by decide +kernel⟩

end Agent

end PrecompileHost
