import PrecompileHost.Proofs.SharedContext

/-!
The depth limit. A call is refused exactly if it is made above the limit, and then nothing happens;
so frames are at most one level deeper than the limit, and however routines call themselves and each
other, every call comes to an end. The distance to the limit is what the recursion goes down by.
-/

namespace PrecompileHost

/-- A property of calls holds of every call of an engine, nested calls included, if it holds of a
call above the depth limit and of a call within it whose nested calls, one level deeper, have it. -/
theorem dispatch_level_induction {s : Setting}
    {P : CallContext → Request → World → Dispatched → Prop}
    (tooDeep : ∀ c r w, s.maxDepth < c.depth →
      P c r w (.refused r c .tooDeep .callDepthExceeded w))
    (executed : ∀ c, c.depth ≤ s.maxDepth →
      (∀ t r w, P (c.enter t) r w (dispatch s (s.levels (c.depth + 1)) (c.enter t) r w)) →
        ∀ r w d, r.Executed s (s.levels (c.depth + 1)) c w d → P c r w d)
    (c : CallContext) (r : Request) (w : World) :
    P c r w (dispatch s (s.levels c.depth) c r w) := by
  generalize hn : s.levels c.depth = n
  induction n using Nat.strongRecOn generalizing c r w with
  | ind n ih =>
    subst hn
    by_cases hdepth : s.maxDepth < c.depth
    · rw [dispatch_levels_of_lt _ _ _ _ hdepth]
      exact tooDeep c r w hdepth
    · have hle : c.depth ≤ s.maxDepth := Nat.le_of_not_lt hdepth
      rw [dispatch_levels_of_le _ _ _ _ hle]
      refine executed c hle (fun t r w => ?_) r w _ (r.executed_execute s _ c w)
      have hless : s.levels (c.depth + 1) < s.levels c.depth := by
        unfold Setting.levels
        omega
      exact ih _ hless (c.enter t) r w rfl

/-- The call was refused as too deep exactly if it was made above the limit; the depth of its frame,
if it opened one, could be counted; only a routine has a frame, and without one there was no frame
inside of the call. -/
structure CallRecord.WithinDepth (s : Setting) (r : CallRecord) (body : Trace) : Prop where
  refusal : r.handling = .tooDeep ↔ s.maxDepth < r.context.depth
  refused : r.handling = .tooDeep →
    r.ending = .returned ⟨.error .callDepthExceeded, r.request.gas⟩ ∧ r.left = r.found
  countable : r.handling ≠ .uncountable
  framed : ∀ frame, r.handling = .entered frame →
    ∃ routine, s.active.get? r.request.target = some (.stateful routine)
  frameless : (∀ frame, r.handling ≠ .entered frame) → body = .done

theorem Dispatched.withinDepth_tooDeep {s : Setting} {c : CallContext}
    (hdepth : s.maxDepth < c.depth) (r : Request) (w : World) :
    (refused r c .tooDeep .callDepthExceeded w).EachCall (CallRecord.WithinDepth s) :=
  ⟨⟨⟨fun _ => hdepth, fun _ => rfl⟩, fun _ => ⟨rfl, rfl⟩, nofun, nofun, fun _ => rfl⟩, trivial⟩

/-- What may become of a call within the limit, given what has happened inside of it. -/
structure Handling.Allowed (s : Setting) (target : Address) (handling : Handling)
    (body : Trace) : Prop where
  shallow : handling ≠ .tooDeep
  countable : handling ≠ .uncountable
  framed : ∀ frame, handling = .entered frame →
    ∃ routine, s.active.get? target = some (.stateful routine)
  frameless : (∀ frame, handling ≠ .entered frame) → body = .done

theorem Request.Handled.allowed {s : Setting} {levels : Nat} {c : CallContext} {r : Request}
    {w : World} {handling : Handling} {callee : Run Bytes}
    (hmax : s.maxDepth + 1 < CallContext.depthLimit) (hdepth : c.depth ≤ s.maxDepth)
    (h : r.Handled s levels c w handling callee) : handling.Allowed s r.target callee.trace := by
  cases h with
  | uncountable hactive hframe hover =>
    -- within the limit the depth of one more frame can be counted
    have : CallContext.depthLimit ≤ s.maxDepth + 1 := by omega
    exact absurd hmax (Nat.not_lt.mpr this)
  | @entered routine frame hactive hframe hcounted =>
    exact ⟨nofun, nofun, fun _ _ => ⟨routine, hactive⟩, fun h => absurd rfl (h frame)⟩
  | codeless | underpaid | stateless | parentless =>
    exact ⟨nofun, nofun, nofun, fun _ => rfl⟩

theorem Handling.Allowed.withinDepth {s : Setting} {r : CallRecord} {body : Trace}
    (h : r.handling.Allowed s r.request.target body) (hdepth : r.context.depth ≤ s.maxDepth) :
    r.WithinDepth s body where
  refusal := ⟨fun hdeep => absurd hdeep h.shallow, fun hlt => absurd hdepth (Nat.not_le.mpr hlt)⟩
  refused hdeep := absurd hdeep h.shallow
  countable := h.countable
  framed := h.framed
  frameless := h.frameless

theorem Dispatched.withinDepth_settle {s : Setting} {r : Request} {c : CallContext} {id : Nat}
    {found : State} {handling : Handling} {callee : Run Bytes} (hdepth : c.depth ≤ s.maxDepth)
    (hallowed : handling.Allowed s r.target callee.trace)
    (hcalls : callee.trace.EachCall (CallRecord.WithinDepth s)) :
    (settle r c id found handling callee).EachCall (CallRecord.WithinDepth s) := by
  rw [EachCall, body_settle]
  refine ⟨Handling.Allowed.withinDepth ?_ ?_, hcalls⟩
  · rw [handling_settle, request_settle]
    exact hallowed
  · rw [context_settle]
    exact hdepth

theorem dispatch_withinDepth {s : Setting} (hmax : s.maxDepth + 1 < CallContext.depthLimit)
    (c : CallContext) (r : Request) (w : World) :
    (dispatch s (s.levels c.depth) c r w).record.context = c ∧
      (dispatch s (s.levels c.depth) c r w).EachCall (CallRecord.WithinDepth s) := by
  refine dispatch_level_induction (P := fun c _ _ d => d.record.context = c ∧
    d.EachCall (CallRecord.WithinDepth s)) ?tooDeep ?executed c r w
  case tooDeep =>
    intro c r w hdepth
    exact ⟨rfl, Dispatched.withinDepth_tooDeep hdepth r w⟩
  case executed =>
    intro c hdepth ih r w d hd
    cases hd with
    | unfunded =>
      have hallowed : Handling.unfunded.Allowed s r.target .done :=
        ⟨nofun, nofun, nofun, fun _ => rfl⟩
      exact ⟨rfl, hallowed.withinDepth hdepth, trivial⟩
    | overfull =>
      have hallowed : Handling.overfull.Allowed s r.target .done :=
        ⟨nofun, nofun, nofun, fun _ => rfl⟩
      exact ⟨Dispatched.context_settle ..,
        Dispatched.withinDepth_settle hdepth hallowed trivial⟩
    | @handled _ found hfund handling callee hhandled =>
      refine ⟨Dispatched.context_settle ..,
        Dispatched.withinDepth_settle hdepth (hhandled.allowed hmax hdepth) ?_⟩
      cases hhandled with
      | entered hactive hframe hcounted =>
        exact Program.eachCall_run (h := s.host _ (c.enter _)) (fun r w => (ih _ r w).2) _ _ _
      | _ => trivial

/-- However routines call themselves and each other, every call of an engine ends, in no more steps
of recursion than the limit leaves levels. No frame is deeper than one level below the limit, the
frames on the stack are as many as the levels they have added, and no depth fails to be counted. A
call is refused as too deep exactly above the limit, and then it gives all its gas back and leaves
the state as it is. -/
theorem Engine.depth_bounded (e : Engine)
    (hmax : e.setting.maxDepth + 1 < CallContext.depthLimit) (r : Request) :
    (∀ extra, ∃ after : Cell,
      (dispatchIn e.setting (e.setting.levels e.context.depth + 1 + extra) [] r e.world).run
          ⟨e.context, []⟩ = some (e.dispatch r, after) ∧
        ∀ sighting ∈ after.seen,
          e.context.depth + 1 ≤ sighting.context.depth ∧
            sighting.context.depth ≤ e.setting.maxDepth + 1 ∧
            sighting.context.depth = e.context.depth + sighting.stack.length ∧
            sighting.stack.length ≤ e.setting.maxDepth + 1 - e.context.depth) ∧
    ((e.dispatch r).record.handling = .tooDeep ↔ e.setting.maxDepth < e.context.depth) ∧
    (e.setting.maxDepth < e.context.depth →
      (e.dispatch r).record.ending = .returned ⟨.error .callDepthExceeded, r.gas⟩ ∧
        (e.dispatch r).world = e.world) ∧
    (e.dispatch r).EachCall (CallRecord.WithinDepth e.setting) := by
  obtain ⟨hcontext, hcalls⟩ := dispatch_withinDepth hmax e.context r e.world
  refine ⟨fun extra => ?_, ?_, fun hdepth => ?_, hcalls⟩
  · obtain ⟨seen, hrun, hseen⟩ := e.restores_dispatch r extra []
    refine ⟨_, hrun, fun sighting hmem => ?_⟩
    rw [List.nil_append] at hmem
    have hproper := hseen sighting hmem
    have hdepth : sighting.context.depth = e.context.depth + sighting.stack.length := by
      rw [hproper.context, CallContext.under_eq]
    have hstack : 0 < sighting.stack.length := List.length_pos_iff.mpr hproper.stack
    have hlimit := hproper.depth
    omega
  · have hrefusal := hcalls.1.refusal
    rw [hcontext] at hrefusal
    exact hrefusal
  · unfold dispatch
    rw [dispatch_levels_of_lt _ _ _ _ hdepth]
    exact ⟨rfl, rfl⟩

namespace Recursion

/-- Calls itself, whatever comes of it. -/
def recursor (_ : Bytes) : Program Bytes := do
  let frame ← Program.observe
  discard <| Program.callOut
    { target := frame.rawSelf, input := [], gas := frame.contract.gas, value := 0 }
  pure []

def engine : Engine :=
  (Engine.create {} (WordMap.ofList [(0xa0, .stateful recursor)])).withMaxDepth 2

def request : Request :=
  { callType := .call, caller := .account 0xc0, target := 0xa0, input := [], gas := 1000,
    value := 0 }

/-- Of the calls made at depths 0 to 3 the last is refused. -/
theorem engine_depth_bounded :
    engine.setting.maxDepth + 1 < CallContext.depthLimit ∧
      (engine.dispatch request).record.ending = .returned ⟨.ok [], 1000⟩ ∧
      (engine.dispatch request).EachCall (CallRecord.WithinDepth engine.setting) ∧
      ∃ after : Cell,
        (dispatchIn engine.setting 4 [] request engine.world).run ⟨engine.context, []⟩ =
          some (engine.dispatch request, after) ∧
        ∀ sighting ∈ after.seen, sighting.context.depth ≤ 3 ∧ sighting.stack.length ≤ 3 := by
  obtain ⟨hends, -, -, hcalls⟩ := Engine.depth_bounded engine (by decide) request
  obtain ⟨after, hrun, hseen⟩ := hends 0
  refine ⟨by decide, rfl, hcalls, after, hrun, fun sighting hmem => ?_⟩
  obtain ⟨-, hdepth, -, hstack⟩ := hseen sighting hmem
  exact ⟨hdepth, hstack⟩

end Recursion

end PrecompileHost
