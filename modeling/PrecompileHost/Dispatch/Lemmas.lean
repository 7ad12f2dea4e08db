import PrecompileHost.Dispatch

/-!
How a call is settled, and how the depth limit decides whether it is made.
-/

namespace PrecompileHost

namespace Dispatched

variable (r : Request) (c : CallContext) (id : Nat) (found : State) (handling : Handling)
  (callee : Run Bytes)

theorem settle_of_ok {output : Bytes} (h : callee.ending = .returned (.ok output)) :
    settle r c id found handling callee =
      ⟨⟨r, c, handling, found, callee.world.state, .returned ⟨.ok output, callee.gas⟩⟩,
        callee.trace, { callee.world with state := callee.world.state.commit id }⟩ := by
  unfold settle
  simp only [h]

theorem settle_of_error {e : CallError} (h : callee.ending = .returned (.error e)) :
    settle r c id found handling callee =
      ⟨⟨r, c, handling, found, callee.world.state,
          .returned ⟨.error e, if e.isRevert then callee.gas else 0⟩⟩,
        callee.trace, { callee.world with state := callee.world.state.revertTo id }⟩ := by
  unfold settle
  simp only [h]

theorem settle_of_aborted {m : String} (h : callee.ending = .aborted m) :
    settle r c id found handling callee =
      ⟨⟨r, c, handling, found, callee.world.state, .aborted m⟩, callee.trace, callee.world⟩ := by
  unfold settle
  simp only [h]

end Dispatched

variable (s : Setting) (c : CallContext) (r : Request) (w : World)

/-- A call above the depth limit is refused. -/
theorem dispatch_levels_of_lt (h : s.maxDepth < c.depth) :
    dispatch s (s.levels c.depth) c r w = .refused r c .tooDeep .callDepthExceeded w := by
  have : s.levels c.depth = 0 := by
    unfold Setting.levels
    omega
  rw [this]
  rfl

/-- A call within the depth limit is executed, and those nested in its frame have the levels of
their own depth. -/
theorem dispatch_levels_of_le (h : c.depth ≤ s.maxDepth) :
    dispatch s (s.levels c.depth) c r w =
      r.execute s (dispatch s (s.levels (c.depth + 1))) c w := by
  have : s.levels c.depth = s.levels (c.depth + 1) + 1 := by
    unfold Setting.levels
    omega
  rw [this]
  rfl

end PrecompileHost
