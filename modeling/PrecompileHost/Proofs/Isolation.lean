import PrecompileHost.Proofs.Transcript

/-!
Isolation of static calls. A static call opens a read-only context, every context inside of it is
read-only as well, and the dispatcher's own bookkeeping under it comes to nothing: a frame may not
attach a value to a nested call there, so no balance moves, and a snapshot is of the accounts that
are there anyway. So the state is the same at every moment of the call, even where it is abandoned.
-/

namespace PrecompileHost

/-- What an operation answers where state is read-only: the frame sees the flag, and is given
nothing to write to. -/
def Operation.ShowsReadOnly : (o : Operation) → o.Answer → Prop
  | .observe, seen => seen.readOnly = true
  | .write _, answer => answer = none
  | .chain, _ | .useGas _, _ | .read _, _ | .invalidate _, _ | .log _, _ => True

/-- The context of the callee's frame is read-only, and its operations show it. -/
def CallRecord.RunsReadOnly (r : CallRecord) (body : Trace) : Prop :=
  (r.context.enter r.request.callType).readOnly = true ∧
    body.EachPerformed Operation.ShowsReadOnly

/-- A call made in state `before` that has changed nothing. Only an abandoned call may leave
snapshots behind. -/
structure Dispatched.Isolated (d : Dispatched) (before : State) : Prop where
  frames : d.EachCall CallRecord.RunsReadOnly
  accounts : d.world.state.accounts = before.accounts
  state : ∀ outcome, d.record.ending = .returned outcome → d.world.state = before

/-- The same of the run of a routine. -/
structure Run.Isolated {α : Type} (run : Run α) (before : State) : Prop where
  operations : run.trace.EachPerformed Operation.ShowsReadOnly
  frames : run.trace.EachCall CallRecord.RunsReadOnly
  accounts : run.world.state.accounts = before.accounts
  state : ∀ result, run.ending = .returned result → run.world.state = before

theorem Host.showsReadOnly_perform {h : Host} {frame : Frame} {gas : Gas} {w : World}
    (hro : h.context.readOnly = true) (o : Operation) :
    o.ShowsReadOnly (h.perform frame gas w o).1 := by
  cases o with
  | observe => exact hro
  | write m =>
    simp only [Operation.ShowsReadOnly, perform, if_pos hro]
  | chain | useGas | read | invalidate | log => trivial

theorem Program.isolated_run {α : Type} {h : Host} {frame : Frame}
    (hro : h.context.readOnly = true)
    (hdispatch : ∀ r w, (r.callType = .call → r.value = 0) →
      (h.dispatch r w).Isolated w.state)
    (p : Program α) (gas : Gas) (w : World) : (p.run h frame gas w).Isolated w.state := by
  -- a nested call that would move a value has been declined
  have hcall : ∀ {call : NestedCall} {reserved gas : Gas} {w : World},
      h.reserve gas call = .ok reserved →
        (h.dispatch (call.request frame reserved) w).Isolated w.state := by
    intro call reserved gas w hreserve
    have hvalue := (h.reserve_eq_ok_iff gas call).mp hreserve
    exact hdispatch _ _ fun _ => hvalue.1 hro
  refine run_induction (P := fun _ w run => run.Isolated w.state) ?pure ?fail ?abort ?perform
    ?declined ?aborted ?returned p gas w
  case pure =>
    intro a gas w
    exact ⟨trivial, trivial, rfl, fun _ _ => rfl⟩
  case fail =>
    intro e gas w
    exact ⟨trivial, trivial, rfl, fun _ _ => rfl⟩
  case abort =>
    intro m gas w
    exact ⟨trivial, trivial, rfl, fun _ _ => rfl⟩
  case perform =>
    intro o gas w rest ih
    rw [h.state_perform_of_readOnly frame gas w o hro] at ih
    exact ⟨⟨Host.showsReadOnly_perform hro o, ih.operations⟩, ih.frames, ih.accounts, ih.state⟩
  case declined =>
    intro call e gas w rest _ ih
    exact ⟨ih.operations, ih.frames, ih.accounts, ih.state⟩
  case aborted =>
    intro call m reserved gas w d hreserve hd _
    have hd : d.Isolated w.state := hd ▸ hcall hreserve
    exact ⟨trivial, ⟨hd.frames, trivial⟩, hd.accounts, fun _ h => nomatch h⟩
  case returned =>
    intro call outcome reserved gas w d rest hreserve hd hending ih
    have hd : d.Isolated w.state := hd ▸ hcall hreserve
    rw [hd.state outcome hending] at ih
    exact ⟨ih.operations, ⟨hd.frames, ih.frames⟩, ih.accounts, ih.state⟩

/-- A call made in state `before` that has changed nothing but to move its own value, and has not
done that if it failed. -/
structure Dispatched.MovesOnly (d : Dispatched) (r : Request) (before : State) : Prop where
  frames : d.EachCall CallRecord.RunsReadOnly
  failed : ∀ error left, d.record.ending = .returned ⟨.error error, left⟩ →
    d.world.state.accounts = before.accounts
  moved : (∀ error left, d.record.ending ≠ .returned ⟨.error error, left⟩) →
    before.accounts.transfer? r.caller.address r.target r.movedValue =
      some d.world.state.accounts
  snapshots : ∀ outcome, d.record.ending = .returned outcome →
    d.world.state.snapshots = before.snapshots

namespace Dispatched

variable {r : Request} {c : CallContext} {before found : State} {handling : Handling}
  {callee : Run Bytes}

theorem movesOnly_of_state {d : Dispatched} {error : CallError} {left : Gas}
    (hframes : d.EachCall CallRecord.RunsReadOnly)
    (hending : d.record.ending = .returned ⟨.error error, left⟩)
    (hstate : d.world.state = before) : d.MovesOnly r before :=
  ⟨hframes, fun _ _ _ => congrArg State.accounts hstate, fun hne => absurd hending (hne _ _),
    fun _ _ => congrArg State.snapshots hstate⟩

theorem movesOnly_settle (hro : (c.enter r.callType).readOnly = true)
    (hfund : r.made.fund? before.snapshot.2 = some found) (hcallee : callee.Isolated found) :
    (settle r.made c before.snapshots.length found handling callee).MovesOnly r before := by
  have hframes : (settle r.made c before.snapshots.length found handling callee).EachCall
      CallRecord.RunsReadOnly := by
    rw [EachCall, CallRecord.RunsReadOnly, context_settle, request_settle, body_settle]
    exact ⟨⟨hro, hcallee.operations⟩, hcallee.frames⟩
  have hsnapshots := Request.snapshots_of_fund? hfund
  rw [Request.fund?_made] at hfund
  obtain ⟨accounts, htransfer, hfound⟩ := Option.map_eq_some_iff.mp hfund
  have haccounts : accounts = found.accounts := congrArg State.accounts hfound
  rw [haccounts] at htransfer
  cases hending : callee.ending with
  | aborted m =>
    -- the value stays where it was moved to, and so does the snapshot
    rw [settle_of_aborted _ _ _ _ _ _ hending] at hframes ⊢
    refine ⟨hframes, nofun, fun _ => ?_, nofun⟩
    rw [hcallee.accounts]
    exact htransfer
  | returned result =>
    have hstate := hcallee.state result hending
    cases result with
    | error e =>
      rw [settle_of_error _ _ _ _ _ _ hending] at hframes ⊢
      refine movesOnly_of_state hframes rfl ?_
      change callee.world.state.revertTo before.snapshots.length = before
      rw [hstate]
      exact before.revertTo_eq_of_snapshots hsnapshots
    | ok output =>
      rw [settle_of_ok _ _ _ _ _ _ hending] at hframes ⊢
      have hreleased : callee.world.state.commit before.snapshots.length =
          { before with accounts := found.accounts } := by
        rw [hstate]
        exact before.commit_eq_of_snapshots hsnapshots
      refine ⟨hframes, nofun, fun _ => ?_, fun _ _ => ?_⟩
      · rw [hreleased]
        exact htransfer
      · rw [hreleased]

theorem MovesOnly.isolated {d : Dispatched} (h : d.MovesOnly r before)
    (hvalue : r.movedValue = 0) : d.Isolated before := by
  have haccounts : d.world.state.accounts = before.accounts := by
    by_cases hfailed : ∃ error left, d.record.ending = .returned ⟨.error error, left⟩
    · obtain ⟨error, left, hending⟩ := hfailed
      exact h.failed error left hending
    · have htransfer := h.moved fun error left hending => hfailed ⟨error, left, hending⟩
      exact (Accounts.eq_of_transfer?_iff htransfer).mpr (.inl hvalue)
  exact ⟨h.frames, haccounts, fun outcome hreturned =>
    congr (congrArg State.mk haccounts) (h.snapshots outcome hreturned)⟩

end Dispatched

/-- A call in a read-only context, or one that opens such a context, changes nothing but to move its
own value. -/
theorem dispatch_movesOnly (s : Setting) (levels : Nat) (c : CallContext) (r : Request)
    (w : World) : (c.enter r.callType).readOnly = true →
      (dispatch s levels c r w).MovesOnly r w.state := by
  refine dispatch_induction (P := fun c r w d => (c.enter r.callType).readOnly = true →
    d.MovesOnly r w.state) ?tooDeep ?executed levels c r w
  case tooDeep =>
    intro c r w hro
    exact Dispatched.movesOnly_of_state ⟨⟨hro, trivial⟩, trivial⟩ rfl rfl
  case executed =>
    intro levels ih c r w d hd hro
    cases hd with
    | unfunded => exact Dispatched.movesOnly_of_state ⟨⟨hro, trivial⟩, trivial⟩ rfl rfl
    | overfull =>
      exact Dispatched.movesOnly_of_state ⟨⟨hro, trivial⟩, trivial⟩ rfl
        (w.state.revertTo_eq_of_snapshots rfl)
    | handled _ hfund hhandled =>
      refine Dispatched.movesOnly_settle hro hfund ?_
      cases hhandled with
      | entered hactive hframe hdepth =>
        -- the frame's context is read-only, so its nested calls have no value to move
        refine Program.isolated_run hro (fun r w hvalue => ?_) _ _ _
        refine (ih _ r w ?_).isolated (Request.movedValue_eq_zero hvalue)
        change ((c.enter _).readOnly || _) = true
        rw [Request.callType_made, hro, Bool.true_or]
      | _ => exact ⟨trivial, trivial, rfl, fun _ _ => rfl⟩

theorem dispatch_isolated (s : Setting) (levels : Nat) (c : CallContext) (r : Request)
    (w : World) (hro : (c.enter r.callType).readOnly = true)
    (hvalue : r.callType = .call → r.value = 0) : (dispatch s levels c r w).Isolated w.state :=
  (dispatch_movesOnly s levels c r w hro).isolated (Request.movedValue_eq_zero hvalue)

/-- Every frame under a static call runs read-only and is given nothing to write to, the accounts
are those of before the call however it ends, and unless it is abandoned so are the snapshots. -/
theorem Engine.staticCall_isolated (e : Engine) (caller : Caller) (target : Address)
    (input : Bytes) (gas : Gas) :
    (e.staticCall caller target input gas).EachCall (fun call body =>
      (call.context.enter call.request.callType).readOnly = true ∧
        body.EachPerformed Operation.ShowsReadOnly) ∧
    (e.staticCall caller target input gas).world.state.accounts = e.world.state.accounts ∧
    ∀ outcome, (e.staticCall caller target input gas).record.ending = .returned outcome →
      (e.staticCall caller target input gas).world.state.snapshots = e.world.state.snapshots := by
  have hisolated : (e.staticCall caller target input gas).Isolated e.world.state :=
    dispatch_isolated _ _ _ _ _ (Bool.or_true _) fun h => nomatch h
  exact ⟨hisolated.frames, hisolated.accounts, fun outcome hreturned =>
    congrArg State.snapshots (hisolated.state outcome hreturned)⟩

/-- A call that an engine is asked to make in a read-only context runs all of its frames read-only,
and all that it may change is to move its own value. That it does: the accounts are those of before
the call exactly if there is no value to move, or nobody to move it to, or the call has failed. -/
theorem Engine.readOnly_moves_only_value (e : Engine) (hro : e.context.readOnly = true)
    (r : Request) :
    ((e.dispatch r).EachCall fun call body =>
      (call.context.enter call.request.callType).readOnly = true ∧
        body.EachPerformed Operation.ShowsReadOnly) ∧
    ((∀ error left, (e.dispatch r).record.ending ≠ .returned ⟨.error error, left⟩) →
      e.world.state.accounts.transfer? r.caller.address r.target r.movedValue =
        some (e.dispatch r).world.state.accounts) ∧
    ((e.dispatch r).world.state.accounts = e.world.state.accounts ↔
      r.movedValue = 0 ∨ r.caller.address = r.target ∨
        ∃ error left, (e.dispatch r).record.ending = .returned ⟨.error error, left⟩) := by
  have hmoves : (e.dispatch r).MovesOnly r e.world.state :=
    dispatch_movesOnly _ _ _ _ _ (Bool.or_eq_true_iff.mpr (.inl hro))
  refine ⟨hmoves.frames, hmoves.moved, ?_⟩
  by_cases hfailed : ∃ error left, (e.dispatch r).record.ending = .returned ⟨.error error, left⟩
  · obtain ⟨error, left, hending⟩ := hfailed
    exact iff_of_true (hmoves.failed error left hending) (.inr (.inr ⟨error, left, hending⟩))
  · have htransfer := hmoves.moved fun error left hending => hfailed ⟨error, left, hending⟩
    rw [Accounts.eq_of_transfer?_iff htransfer, or_iff_left hfailed]

namespace Meddler

/-- Tries to write, to pay and to go back to a snapshot, and hands over to `accomplice` in its
caller's name. -/
def meddler (_ : Bytes) : Program Bytes := do
  discard <| Program.write? (.setBalance 0xa0 7)
  discard <| Program.write? (.revertTo 0)
  discard <| Program.callOut { target := 0xb0, input := [], gas := 10, value := 1 }
  discard <| Program.callOut
    { target := 0xb0, input := [], gas := 100, value := 0, options := [.callerProxying] }
  pure []

def accomplice (_ : Bytes) : Program Bytes := do
  discard <| Program.write? (.setStorage 0xb0 1 2)
  Program.write (.setNonce 0xc0 3)
  pure []

def engine : Engine :=
  Engine.create { accounts := (∅ : Accounts).setBalance 0xc0 10, snapshots := [∅] }
    (WordMap.ofList [(0xa0, .stateful meddler), (0xb0, .stateful accomplice)])

theorem engine_staticCall_isolated :
    (engine.staticCall (.account 0xc0) 0xa0 [] 1000).record.ending =
      .returned ⟨.ok [], 900⟩ ∧
    (engine.staticCall (.account 0xc0) 0xa0 [] 1000).body.EachPerformed
      Operation.ShowsReadOnly ∧
    (engine.staticCall (.account 0xc0) 0xa0 [] 1000).world.state.accounts =
      engine.world.state.accounts ∧
    (engine.staticCall (.account 0xc0) 0xa0 [] 1000).world.state.snapshots = [∅] := by
  obtain ⟨hframes, haccounts, hsnapshots⟩ :=
    Engine.staticCall_isolated engine (.account 0xc0) 0xa0 [] 1000
  exact ⟨rfl, hframes.1.2, haccounts, hsnapshots _ rfl⟩

/-- The engine in the middle of a static call. -/
def held : Engine :=
  engine.withContext { depth := 3, readOnly := true }

def paid : Request :=
  { callType := .call, caller := .account 0xc0, target := 0xa0, input := [], gas := 1000,
    value := 7 }

theorem held_readOnly_moves_only_value :
    held.context.readOnly = true ∧
      (held.dispatch paid).body.EachPerformed Operation.ShowsReadOnly ∧
      held.world.state.accounts.transfer? 0xc0 0xa0 7 =
        some (held.dispatch paid).world.state.accounts := by
  obtain ⟨hframes, hmoved, -⟩ := Engine.readOnly_moves_only_value held rfl paid
  exact ⟨rfl, hframes.1.2, hmoved nofun⟩

/-- So a read-only context does not keep a call from paying an account, code or not. -/
theorem held_pays_though_readOnly :
    held.context.readOnly = true ∧
      (held.call (.account 0xc0) 0xd0 [] 1000 7).record.ending = .returned ⟨.ok [], 1000⟩ ∧
      (held.call (.account 0xc0) 0xd0 [] 1000 7).world.state.accounts.balance 0xd0 = 7 ∧
      (held.call (.account 0xc0) 0xd0 [] 1000 7).world.state.accounts ≠
        held.world.state.accounts := by
  refine ⟨rfl, rfl, by decide +kernel, by decide +kernel⟩

end Meddler

end PrecompileHost
