import PrecompileHost.Proofs.Transcript

/-!
The call context as one cell that all frames of a call tree share. Here calls are executed with
that cell: a call is refused by what the cell holds, opening a frame changes it, and a guard puts
back what the frame has received. Nothing bounds the recursion but the cell itself, and a frame
looks at the cell anew at each of its steps.

This execution comes to an end, and it is the execution in which every frame is handed a context of
its own (`restores_dispatchIn`): every call leaves in the cell what it has found there, whatever
becomes of it, so that what a frame sees there depends on the calls around it alone.
-/

namespace PrecompileHost

/-- The context of the innermost frame where frames were opened one inside the other from `c` on,
by calls of the given types, outermost first. -/
def CallContext.under (c : CallContext) (stack : List CallType) : CallContext :=
  stack.foldl CallContext.enter c

theorem CallContext.under_append (c : CallContext) (stack : List CallType) (t : CallType) :
    c.under (stack ++ [t]) = (c.under stack).enter t := by
  simp [under]

/-- One level for each frame, and read-only from the first static call on. -/
theorem CallContext.under_eq (c : CallContext) (stack : List CallType) :
    c.under stack = ⟨c.depth + stack.length, c.readOnly || stack.any CallType.readOnly⟩ := by
  induction stack generalizing c with
  | nil => simp [under]
  | cons t stack ih =>
    change (c.enter t).under stack = _
    rw [ih, enter]
    simp [Nat.add_assoc, Nat.add_comm 1, Bool.or_assoc]

/-- A moment at which a frame is in control: the types of the calls that have opened the frames on
the stack, outermost first, and what the cell holds. -/
structure Sighting where
  stack : List CallType
  context : CallContext
  deriving DecidableEq

/-- What the cell holds, and what the frames have seen there so far. -/
structure Cell where
  context : CallContext
  seen : List Sighting := []
  deriving DecidableEq

/-! ### Execution with the cell -/

/-- An execution that uses the cell. It may have no result, where it does not come to an end. -/
abbrev Celled := StateT Cell Option

namespace Celled

def held : Celled CallContext := do
  return (← get).context

def hold (c : CallContext) : Celled Unit :=
  modify fun cell => { cell with context := c }

/-- What the frame in control sees. -/
def look (stack : List CallType) : Celled CallContext := do
  let c ← held
  modify fun cell => { cell with seen := cell.seen ++ [⟨stack, c⟩] }
  return c

/-- Runs `m` with `c` in the cell and puts back what was there. An abort is a result like any
other, so the cell is put back then too. -/
def within {α : Type} (c : CallContext) (m : Celled α) : Celled α := do
  let received ← held
  hold c
  let a ← m
  hold received
  return a

end Celled

/-- Runs a routine in the context that the cell holds at each of its steps. -/
def Program.runIn {α : Type} (s : Setting) (dispatch : Request → World → Celled Dispatched)
    (stack : List CallType) (frame : Frame) : Program α → Gas → World → Celled (Run α)
  | .pure a, gas, w => do
    discard <| Celled.look stack
    return ⟨.returned (.ok a), gas, w, .done⟩
  | .fail e, gas, w => do
    discard <| Celled.look stack
    return ⟨.returned (.error e), gas, w, .done⟩
  | .abort m, gas, w => do
    discard <| Celled.look stack
    return ⟨.aborted m, gas, w, .done⟩
  | .perform o next, gas, w => do
    let step := (s.host 0 (← Celled.look stack)).perform frame gas w o
    let rest ← (next step.1).runIn s dispatch stack frame step.2.1 step.2.2
    return rest.mapTrace (.performed o step.1)
  | .call c next, gas, w => do
    match (s.host 0 (← Celled.look stack)).reserve gas c with
    | .error e =>
      let rest ← (next (.error e)).runIn s dispatch stack frame gas w
      return rest.mapTrace (.declined c e)
    | .ok left =>
      let d ← dispatch (c.request frame left) w
      match d.record.ending with
      | .aborted m => return ⟨.aborted m, left, d.world, .called d.record d.body .done⟩
      | .returned outcome =>
        let rest ← (next outcome.result).runIn s dispatch stack frame
          (Gas.addSaturating left outcome.gasLeft) d.world
        return rest.mapTrace (.called d.record d.body)

namespace Request

/-- Opens a frame for a routine: the cell is one deeper while it runs. -/
def enterIn (r : Request) (s : Setting)
    (dispatch : List CallType → Request → World → Celled Dispatched) (stack : List CallType)
    (routine : Bytes → Program Bytes) (w : World) : Celled (Handling × Run Bytes) :=
  match r.frame? with
  | none => return (.parentless, ⟨.returned (.error .delegateWithoutFrame), r.gas, w, .done⟩)
  | some frame => do
    let c ← Celled.held
    if CallContext.depthLimit ≤ c.depth + 1 then
      return (.uncountable, ⟨.aborted "attempt to add with overflow", r.gas, w, .done⟩)
    else
      let run ← Celled.within (c.enter r.callType)
        ((routine r.input).runIn s (dispatch (stack ++ [r.callType])) (stack ++ [r.callType]) frame
          r.gas w)
      return (.entered frame, run)

/-- Runs what is active at the target. Only a routine has a frame, and uses the cell. -/
def runTargetIn (r : Request) (s : Setting)
    (dispatch : List CallType → Request → World → Celled Dispatched) (stack : List CallType)
    (w : World) : Celled (Handling × Run Bytes) :=
  match s.active.get? r.target with
  | some (.stateful routine) => r.enterIn s dispatch stack routine w
  | some (.stateless _ _) | none => do
    return r.runTarget s (PrecompileHost.dispatch s 0) (← Celled.held) w

/-- Makes a call, unless what the cell holds is above the depth limit. -/
def executeIn (r : Request) (s : Setting)
    (dispatch : List CallType → Request → World → Celled Dispatched) (stack : List CallType)
    (w : World) : Celled Dispatched := do
  let c ← Celled.held
  if s.maxDepth < c.depth then return .refused r c .tooDeep .callDepthExceeded w
  else if w.state.accounts.balance r.caller.address < r.carriedValue then
    return .refused r.made c .unfunded .insufficientBalance w
  else
    match r.made.fund? w.state.snapshot.2 with
    | none =>
      return .settle r.made c w.state.snapshots.length w.state.snapshot.2 .overfull
        ⟨.returned (.error .insufficientBalance), r.gas, { w with state := w.state.snapshot.2 },
          .done⟩
    | some found =>
      let out ← r.made.runTargetIn s dispatch stack { w with state := found }
      return .settle r.made c w.state.snapshots.length found out.1 out.2

end Request

/-- Makes a call from a frame under the given stack. There is no result if calls are nested `fuel`
levels deep or more. -/
def dispatchIn (s : Setting) : Nat → List CallType → Request → World → Celled Dispatched
  | 0, _, _, _ => failure
  | fuel + 1, stack, r, w => r.executeIn s (dispatchIn s fuel) stack w

/-! ### Executions that restore the cell -/

/-- Started with `c` in the cell, `m` ends with result `a` and `c` back in the cell, and all
sightings on the way are as `Q` says. -/
def Celled.Restores {α : Type} (Q : Sighting → Prop) (m : Celled α) (c : CallContext) (a : α) :
    Prop :=
  ∀ seen, ∃ later, m.run ⟨c, seen⟩ = some (a, ⟨c, seen ++ later⟩) ∧ ∀ sighting ∈ later, Q sighting

namespace Celled

variable {α β : Type} {Q : Sighting → Prop} {c : CallContext}

theorem restores_pure (a : α) : Restores Q (pure a : Celled α) c a := by
  intro seen
  exact ⟨[], by rw [List.append_nil]; rfl, fun _ h => by cases h⟩

theorem restores_held : Restores Q held c c := by
  intro seen
  exact ⟨[], by rw [List.append_nil]; rfl, fun _ h => by cases h⟩

theorem restores_look {stack : List CallType} (h : Q ⟨stack, c⟩) :
    Restores Q (look stack) c c := by
  intro seen
  refine ⟨[⟨stack, c⟩], rfl, fun sighting hmem => ?_⟩
  rw [List.mem_singleton.mp hmem]
  exact h

theorem Restores.bind {m : Celled α} {f : α → Celled β} {a : α} {b : β}
    (hm : Restores Q m c a) (hf : Restores Q (f a) c b) : Restores Q (m >>= f) c b := by
  intro seen
  obtain ⟨first, hfirst, hQfirst⟩ := hm seen
  obtain ⟨second, hsecond, hQsecond⟩ := hf (seen ++ first)
  refine ⟨first ++ second, ?_, fun sighting hmem => ?_⟩
  · rw [StateT.run_bind, hfirst, ← List.append_assoc]
    exact hsecond
  · rcases List.mem_append.mp hmem with h | h
    · exact hQfirst sighting h
    · exact hQsecond sighting h

theorem Restores.map {m : Celled α} {a : α} (hm : Restores Q m c a) (f : α → β) :
    Restores Q (f <$> m) c (f a) := by
  intro seen
  obtain ⟨later, hlater, hQ⟩ := hm seen
  exact ⟨later, by rw [StateT.run_map, hlater]; rfl, hQ⟩

/-- The guard restores the cell, whatever was put into it before. -/
theorem Restores.within {m : Celled α} {inner : CallContext} {a : α} (hm : Restores Q m inner a) :
    Restores Q (within inner m) c a := by
  intro seen
  obtain ⟨later, hlater, hQ⟩ := hm seen
  refine ⟨later, ?_, hQ⟩
  change (m.run ⟨inner, seen⟩).bind (fun out => some (out.1, { out.2 with context := c })) = _
  rw [hlater]
  rfl

end Celled

/-! ### Agreement with execution in contexts of the frames' own -/

/-- The operations of a frame do not depend on how many levels are left. -/
theorem Setting.perform_host (s : Setting) (levels : Nat) (c : CallContext) (frame : Frame)
    (gas : Gas) (w : World) (o : Operation) :
    (s.host 0 c).perform frame gas w o = (s.host levels c).perform frame gas w o := by
  cases o <;> rfl

theorem Setting.reserve_host (s : Setting) (levels : Nat) (c : CallContext) (gas : Gas)
    (call : NestedCall) : (s.host 0 c).reserve gas call = (s.host levels c).reserve gas call := rfl

open Celled

/-- A frame whose nested calls restore the cell sees the same there at each of its steps. -/
theorem Program.restores_runIn {α : Type} {Q : Sighting → Prop} {s : Setting} {levels : Nat}
    {c : CallContext} {stack : List CallType} {frame : Frame}
    {nested : Request → World → Celled Dispatched} (hstack : Q ⟨stack, c⟩)
    (hnested : ∀ r w, Restores Q (nested r w) c (dispatch s levels c r w)) (p : Program α)
    (gas : Gas) (w : World) :
    Restores Q (p.runIn s nested stack frame gas w) c (p.run (s.host levels c) frame gas w) := by
  have hlook : Restores Q (look stack) c c := restores_look hstack
  induction p generalizing gas w with
  | pure | fail | abort => exact (hlook.map _).bind (restores_pure _)
  | perform o next ih =>
    rw [run_perform, ← s.perform_host levels]
    exact hlook.bind ((ih _ _ _).bind (restores_pure _))
  | call call next ih =>
    rw [runIn]
    refine hlook.bind ?_
    rw [s.reserve_host levels]
    cases hreserve : (s.host levels c).reserve gas call with
    | error e =>
      rw [run_call_of_declined _ _ _ _ _ (Host.attempt_of_reserve_error _ _ _ _ _ hreserve)]
      exact (ih _ _ _).bind (restores_pure _)
    | ok left =>
      refine (hnested (call.request frame left) w).bind ?_
      cases hending : (dispatch s levels c (call.request frame left) w).record.ending with
      | aborted m =>
        rw [run_call_of_aborted _ _ _ _ _ (Host.attempt_of_aborted _ _ _ _ _ hreserve hending)]
        exact restores_pure _
      | returned outcome =>
        rw [run_call_of_returned _ _ _ _ _ (Host.attempt_of_returned _ _ _ _ _ hreserve hending)]
        exact (ih _ _ _).bind (restores_pure _)

/-- A frame is in control in the context of the frames around it, within the depth limit. -/
structure Sighting.Proper (s : Setting) (root : CallContext) (sighting : Sighting) : Prop where
  stack : sighting.stack ≠ []
  context : sighting.context = root.under sighting.stack
  depth : sighting.context.depth ≤ s.maxDepth + 1

namespace Request

variable {s : Setting} {levels : Nat} {root c : CallContext} {stack : List CallType}
  {nested : List CallType → Request → World → Celled Dispatched}

theorem restores_runTargetIn (r : Request) (hroot : c = root.under stack)
    (hdepth : c.depth ≤ s.maxDepth)
    (hnested : ∀ t r w, Restores (Sighting.Proper s root) (nested (stack ++ [t]) r w) (c.enter t)
      (dispatch s levels (c.enter t) r w)) (w : World) :
    Restores (Sighting.Proper s root) (r.runTargetIn s nested stack w) c
      (r.runTarget s (dispatch s levels) c w) := by
  unfold runTargetIn runTarget
  cases hactive : s.active.get? r.target with
  | none => exact restores_held.bind (by simpa [hactive] using restores_pure _)
  | some p =>
    cases p with
    | stateless price run =>
      exact restores_held.bind (by simpa [hactive] using restores_pure _)
    | stateful routine =>
      dsimp only
      unfold enterIn enter
      cases hframe : r.frame? with
      | none => exact restores_pure _
      | some frame =>
        refine restores_held.bind ?_
        dsimp only
        split
        · exact restores_pure _
        · have hproper : Sighting.Proper s root ⟨stack ++ [r.callType], c.enter r.callType⟩ := by
            refine ⟨by simp, ?_, Nat.succ_le_succ hdepth⟩
            rw [CallContext.under_append, ← hroot]
          exact (Program.restores_runIn hproper (hnested r.callType) _ _ _).within.bind
            (restores_pure _)

theorem restores_executeIn (r : Request) (hroot : c = root.under stack)
    (hdepth : c.depth ≤ s.maxDepth)
    (hnested : ∀ t r w, Restores (Sighting.Proper s root) (nested (stack ++ [t]) r w) (c.enter t)
      (dispatch s levels (c.enter t) r w)) (w : World) :
    Restores (Sighting.Proper s root) (r.executeIn s nested stack w) c
      (r.execute s (dispatch s levels) c w) := by
  refine restores_held.bind ?_
  rw [if_neg (Nat.not_lt.mpr hdepth)]
  unfold execute
  by_cases hbalance : w.state.accounts.balance r.caller.address < r.carriedValue
  · rw [if_pos hbalance]
    simp only [if_pos hbalance]
    exact restores_pure _
  · rw [if_neg hbalance]
    simp only [if_neg hbalance]
    change Restores _ _ c (match r.made.fund? w.state.snapshot.2 with
      | none => _
      | some found => _)
    cases hfund : r.made.fund? w.state.snapshot.2 with
    | none => exact restores_pure _
    | some found =>
      exact (r.made.restores_runTargetIn hroot hdepth hnested _).bind (restores_pure _)

end Request

/-- Given more fuel than the depth limit leaves levels, a call ends, comes to what it comes to where
each frame has a context of its own, and restores the cell. -/
theorem restores_dispatchIn (s : Setting) (root : CallContext) (fuel : Nat) (c : CallContext)
    (stack : List CallType) (r : Request) (w : World) (hroot : c = root.under stack)
    (hfuel : s.levels c.depth < fuel) :
    Restores (Sighting.Proper s root) (dispatchIn s fuel stack r w) c
      (dispatch s (s.levels c.depth) c r w) := by
  induction fuel generalizing c stack r w with
  | zero => exact absurd hfuel (Nat.not_lt_zero _)
  | succ fuel ih =>
    by_cases hdepth : s.maxDepth < c.depth
    · rw [dispatch_levels_of_lt _ _ _ _ hdepth]
      refine restores_held.bind ?_
      rw [if_pos hdepth]
      exact restores_pure _
    · have hle : c.depth ≤ s.maxDepth := Nat.le_of_not_lt hdepth
      rw [dispatch_levels_of_le _ _ _ _ hle]
      refine r.restores_executeIn hroot hle (fun t r w => ?_) w
      -- one level deeper there is one level less to go, so the fuel still suffices
      refine ih (c.enter t) (stack ++ [t]) r w (by rw [CallContext.under_append, hroot]) ?_
      change s.levels (c.depth + 1) < fuel
      unfold Setting.levels at hfuel ⊢
      omega

theorem Engine.restores_dispatch (e : Engine) (r : Request) (extra : Nat) :
    Restores (Sighting.Proper e.setting e.context)
      (dispatchIn e.setting (e.setting.levels e.context.depth + 1 + extra) [] r e.world)
      e.context (e.dispatch r) :=
  restores_dispatchIn e.setting e.context _ e.context [] r e.world rfl (by omega)

/-! ### What frames observe -/

/-- What an operation shows of whether state is read-only. -/
def Operation.ShowsFlag (readOnly : Bool) : (o : Operation) → o.Answer → Prop
  | .observe, seen => seen.readOnly = readOnly
  | .write _, answer => answer.isNone = readOnly
  | .chain, _ | .useGas _, _ | .read _, _ | .invalidate _, _ | .log _, _ => True

/-- The transcript of a frame that is in context `c` from its first step to its last: its operations
show it, its calls are made in it, and the frames of its calls are entered from it. -/
def Trace.RunsIn : CallContext → Trace → Prop
  | _, .done => True
  | c, .performed o answer rest => o.ShowsFlag c.readOnly answer ∧ rest.RunsIn c
  | c, .declined _ _ rest => rest.RunsIn c
  | c, .called call body rest =>
    (call.context = c ∧ body.RunsIn (c.enter call.request.callType)) ∧ rest.RunsIn c

/-- The same of a call that is made in context `c`. -/
def Dispatched.RunsIn (d : Dispatched) (c : CallContext) : Prop :=
  d.record.context = c ∧ d.body.RunsIn (c.enter d.record.request.callType)

theorem Host.showsFlag_perform (h : Host) (frame : Frame) (gas : Gas) (w : World)
    (o : Operation) : o.ShowsFlag h.context.readOnly (h.perform frame gas w o).1 := by
  cases o with
  | write m =>
    cases hro : h.context.readOnly with
    | true => simp [Operation.ShowsFlag, perform, hro]
    | false => simp [Operation.ShowsFlag, perform, hro]
  | observe => rfl
  | chain | useGas | read | invalidate | log => trivial

theorem Program.runsIn_run {α : Type} {h : Host} {frame : Frame}
    (hdispatch : ∀ r w, (h.dispatch r w).RunsIn h.context) (p : Program α) (gas : Gas)
    (w : World) : (p.run h frame gas w).trace.RunsIn h.context := by
  refine run_induction (P := fun _ _ run => run.trace.RunsIn h.context) ?pure ?fail ?abort
    ?perform ?declined ?aborted ?returned p gas w
  case pure | fail | abort =>
    intros
    trivial
  case perform =>
    intro o gas w rest ih
    exact ⟨h.showsFlag_perform frame gas w o, ih⟩
  case declined =>
    intro call e gas w rest _ ih
    exact ih
  case aborted =>
    intro call m reserved gas w d _ hd _
    obtain ⟨hcontext, hbody⟩ : d.RunsIn h.context := hd ▸ hdispatch _ _
    exact ⟨⟨hcontext, hbody⟩, trivial⟩
  case returned =>
    intro call outcome reserved gas w d rest _ hd _ ih
    obtain ⟨hcontext, hbody⟩ : d.RunsIn h.context := hd ▸ hdispatch _ _
    exact ⟨⟨hcontext, hbody⟩, ih⟩

theorem dispatch_runsIn (s : Setting) (levels : Nat) (c : CallContext) (r : Request)
    (w : World) : (dispatch s levels c r w).RunsIn c := by
  refine dispatch_induction (P := fun c _ _ d => d.RunsIn c) ?tooDeep ?executed levels c r w
  case tooDeep =>
    intro c r w
    exact ⟨rfl, trivial⟩
  case executed =>
    intro levels ih c r w d hd
    cases hd with
    | unfunded => exact ⟨rfl, trivial⟩
    | overfull =>
      rw [Dispatched.RunsIn, Dispatched.context_settle, Dispatched.body_settle]
      exact ⟨rfl, trivial⟩
    | handled hbalance hfund hhandled =>
      rw [Dispatched.RunsIn, Dispatched.context_settle, Dispatched.body_settle,
        Dispatched.request_settle]
      refine ⟨rfl, ?_⟩
      cases hhandled with
      | entered hactive hframe hdepth =>
        exact Program.runsIn_run (h := s.host levels _) (fun r w => ih _ r w) _ _ _
      | _ => trivial

/-- With the context in a cell that all frames share, every call ends as it does where each frame
has its own, whether it returns or is abandoned, and the engine's context is then back in the cell.
Whenever a frame is in control the cell shows one level for each frame on the stack, and is
read-only if the engine's context is or one of these frames was entered by a static call. -/
theorem Engine.context_restored (e : Engine) (r : Request) (extra : Nat) :
    ∃ after : Cell,
      (dispatchIn e.setting (e.setting.levels e.context.depth + 1 + extra) [] r e.world).run
          ⟨e.context, []⟩ = some (e.dispatch r, after) ∧
        after.context = e.context ∧ (e.after (e.dispatch r)).context = after.context ∧
        (∀ sighting ∈ after.seen, sighting.stack ≠ [] ∧
          sighting.context.depth = e.context.depth + sighting.stack.length ∧
            sighting.context.readOnly =
              (e.context.readOnly || sighting.stack.any CallType.readOnly)) ∧
        (e.dispatch r).RunsIn e.context := by
  obtain ⟨seen, hrun, hseen⟩ := e.restores_dispatch r extra []
  refine ⟨_, hrun, rfl, rfl, fun sighting hmem => ?_, dispatch_runsIn _ _ _ r _⟩
  rw [List.nil_append] at hmem
  have hproper := hseen sighting hmem
  rw [hproper.context, CallContext.under_eq]
  exact ⟨hproper.stack, rfl, rfl⟩

namespace Relay

/-- Makes two calls, of which the second is abandoned. -/
def relay (_ : Bytes) : Program Bytes := do
  discard <| Program.callOut { target := 0xb0, input := [], gas := 100, value := 0 }
  discard <| Program.callOut { target := 0xb1, input := [], gas := 100, value := 0 }
  pure []

def failing (_ : Bytes) : Program Bytes :=
  .fail .headerUnavailable

def faulty (_ : Bytes) : Program Bytes :=
  .abort "fault"

/-- An engine that is three levels deep already. -/
def engine : Engine :=
  (Engine.create {} (WordMap.ofList
    [(0xa0, .stateful relay), (0xb0, .stateful failing), (0xb1, .stateful faulty)])).withContext
      { depth := 3 }

def request : Request :=
  { callType := .staticCall, caller := .account 0xc0, target := 0xa0, input := [], gas := 1000,
    value := 0 }

/-- What the cell goes through: the outer frame is in control three times, before and after its
first call and never after the second. -/
def after : Cell :=
  { context := { depth := 3 }
    seen :=
      [⟨[.staticCall], ⟨4, true⟩⟩, ⟨[.staticCall, .call], ⟨5, true⟩⟩, ⟨[.staticCall], ⟨4, true⟩⟩,
        ⟨[.staticCall, .call], ⟨5, true⟩⟩] }

theorem engine_context_restored :
    (engine.dispatch request).record.ending = .aborted "fault" ∧
      (dispatchIn engine.setting 1023 [] request engine.world).run ⟨engine.context, []⟩ =
        some (engine.dispatch request, after) ∧
      (engine.after (engine.dispatch request)).context = after.context ∧
      (engine.dispatch request).RunsIn engine.context := by
  obtain ⟨cell, hrun, -, hcontext, -, hruns⟩ := Engine.context_restored engine request 0
  have hfuel : engine.setting.levels engine.context.depth + 1 + 0 = 1023 := rfl
  rw [hfuel] at hrun
  have hcell : cell = after := by
    have hseen : ((dispatchIn engine.setting 1023 [] request engine.world).run
        ⟨engine.context, []⟩).map (·.2) = some after := by decide +kernel
    rw [hrun] at hseen
    exact Option.some.inj hseen
  rw [← hcell]
  exact ⟨rfl, hrun, hcontext, hruns⟩

end Relay

end PrecompileHost
