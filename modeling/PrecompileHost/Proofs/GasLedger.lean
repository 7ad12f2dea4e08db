import PrecompileHost.Proofs.Transcript

/-!
The gas ledger. What a call spends is read off its transcript, without looking at what it gives
back, and the two always add up to what it was given. Within a frame the same books show the gas
that the routine sees at each moment: it falls by what is spent, and by nothing else.
-/

namespace PrecompileHost

/-- Turned away before a snapshot was taken. -/
def Handling.isRefusal : Handling → Bool
  | .tooDeep | .unfunded => true
  | .overfull | .codeless | .underpaid _ | .stateless _ | .parentless | .uncountable
  | .entered _ => false

/-- A failure other than a revert takes all the gas. -/
def CallResult.forfeitsGas : CallResult → Bool
  | .ok _ => false
  | .error e => !e.isRevert

def CallRecord.forfeitsGas (r : CallRecord) : Bool :=
  match r.ending with
  | .returned outcome => CallResult.forfeitsGas outcome.result
  | .aborted _ => false

def Operation.gasSpent : (o : Operation) → o.Answer → Nat
  | .useGas amount, true => amount.toNat
  | _, _ => 0

/-- What the callee of a call costs, if its routine spends `inside`. -/
def Request.calleeGas (s : Setting) (r : Request) (inside : Nat) : Nat :=
  match s.active.get? r.target with
  | none => 0
  | some (.stateless price _) => (price r.input).toNat
  | some (.stateful _) => inside

/-- What a call costs, if the routine of its callee spends `inside`. -/
def CallRecord.gasSpent (s : Setting) (r : CallRecord) (inside : Nat) : Nat :=
  if r.handling.isRefusal then 0
  else if r.forfeitsGas then r.request.gas.toNat
  else r.request.calleeGas s inside

/-- What a routine spends: on its own account, and on the calls that it makes. -/
def Trace.gasSpent (s : Setting) : Trace → Nat
  | .done => 0
  | .performed o answer rest => o.gasSpent answer + rest.gasSpent s
  | .declined _ _ rest => rest.gasSpent s
  | .called call body rest => call.gasSpent s (body.gasSpent s) + rest.gasSpent s

def Dispatched.gasSpent (s : Setting) (d : Dispatched) : Nat :=
  d.record.gasSpent s (d.body.gasSpent s)

/-- What an operation shows of the gas, of which there is `gas`. -/
def Operation.ShowsGas (gas : Nat) : (o : Operation) → o.Answer → Prop
  | .observe, seen => seen.contract.gas.toNat = gas
  | .useGas amount, enough => enough = decide (amount.toNat ≤ gas)
  | .chain, _ | .read _, _ | .write _, _ | .invalidate _, _ | .log _, _ => True

/-- The books of a frame that has `gas`. A nested call is given no more than there is, and what it
gives back is added without reaching the largest amount; a call that was declined and gas that was
asked for in vain change nothing. -/
def Trace.Books (s : Setting) : Nat → Trace → Prop
  | _, .done => True
  | gas, .performed o answer rest =>
    o.ShowsGas gas answer ∧ rest.Books s (gas - o.gasSpent answer)
  | gas, .declined _ _ rest => rest.Books s gas
  | gas, .called call body rest =>
    call.request.gas.toNat ≤ gas ∧
      (∀ outcome, call.ending = .returned outcome →
        gas - call.request.gas.toNat + outcome.gasLeft.toNat < UInt64.size ∧
          gas - call.request.gas.toNat + outcome.gasLeft.toNat =
            gas - call.gasSpent s (body.gasSpent s)) ∧
      rest.Books s (gas - call.gasSpent s (body.gasSpent s))

/-- The gas that a call gives back and the gas that it has spent are what it was given, and the
books of its frame are in order. -/
structure CallRecord.Balanced (s : Setting) (r : CallRecord) (body : Trace) : Prop where
  total : ∀ outcome, r.ending = .returned outcome →
    outcome.gasLeft.toNat + r.gasSpent s (body.gasSpent s) = r.request.gas.toNat
  books : body.Books s r.request.gas.toNat

/-- The same of a run that starts with `gas`. -/
structure Run.Balanced {α : Type} (s : Setting) (run : Run α) (gas : Gas) : Prop where
  total : ∀ result, run.ending = .returned result →
    run.gas.toNat + run.trace.gasSpent s = gas.toNat
  books : run.trace.Books s gas.toNat
  calls : run.trace.EachCall (CallRecord.Balanced s)

/-! ### Frames -/

theorem Gas.toNat_addSaturating {a b : Gas} (h : a.toNat + b.toNat < UInt64.size) :
    (Gas.addSaturating a b).toNat = a.toNat + b.toNat := by
  unfold Gas.addSaturating
  rw [if_pos h, UInt64.toNat_add]
  exact Nat.mod_eq_of_lt h

theorem Host.gas_perform (h : Host) (frame : Frame) (gas : Gas) (w : World) (o : Operation) :
    o.ShowsGas gas.toNat (h.perform frame gas w o).1 ∧
      (h.perform frame gas w o).2.1.toNat + o.gasSpent (h.perform frame gas w o).1 =
        gas.toNat := by
  cases o with
  | useGas amount =>
    cases hsub : Gas.sub? gas amount with
    | none =>
      have hlt : gas.toNat < amount.toNat :=
        UInt64.lt_iff_toNat_lt.mp (Gas.sub?_eq_none_iff.mp hsub)
      simp only [perform, hsub, Operation.ShowsGas, Operation.gasSpent]
      exact ⟨(decide_eq_false (by omega)).symm, rfl⟩
    | some left =>
      have hleft := Gas.toNat_of_sub?_eq_some hsub
      simp only [perform, hsub, Operation.ShowsGas, Operation.gasSpent]
      exact ⟨(decide_eq_true (by omega)).symm, hleft⟩
  | write m =>
    refine ⟨trivial, ?_⟩
    by_cases hro : h.context.readOnly = true
    · simp only [perform, if_pos hro]
      rfl
    · simp only [perform, if_neg hro]
      rfl
  | observe => exact ⟨rfl, rfl⟩
  | chain | read | invalidate | log => exact ⟨trivial, rfl⟩

/-- The refund of a nested call that balances brings the frame to what it had less what the call
has spent. -/
theorem Host.gas_reserve {h : Host} {gas reserved left : Gas} {call : NestedCall} {spent : Nat}
    (hreserve : h.reserve gas call = .ok reserved) (htotal : left.toNat + spent = call.gas.toNat) :
    call.gas.toNat ≤ gas.toNat ∧ gas.toNat - call.gas.toNat + left.toNat < UInt64.size ∧
      gas.toNat - call.gas.toNat + left.toNat = gas.toNat - spent ∧
      (Gas.addSaturating reserved left).toNat = gas.toNat - spent := by
  have hsub := Gas.toNat_of_sub?_eq_some ((h.reserve_eq_ok_iff gas call).mp hreserve).2
  have hgas : gas.toNat < UInt64.size := gas.toNat_lt
  have hsum : reserved.toNat + left.toNat < UInt64.size := by omega
  rw [Gas.toNat_addSaturating hsum]
  omega

theorem Program.balanced_run {α : Type} {s : Setting} {h : Host} {frame : Frame}
    (hdispatch : ∀ r w, (h.dispatch r w).record.request.gas = r.gas ∧
      (h.dispatch r w).EachCall (CallRecord.Balanced s))
    (p : Program α) (gas : Gas) (w : World) : (p.run h frame gas w).Balanced s gas := by
  refine run_induction (P := fun gas _ run => run.Balanced s gas) ?pure ?fail ?abort ?perform
    ?declined ?aborted ?returned p gas w
  case pure =>
    intro a gas w
    exact ⟨fun _ _ => rfl, trivial, trivial⟩
  case fail =>
    intro e gas w
    exact ⟨fun _ _ => rfl, trivial, trivial⟩
  case abort =>
    intro m gas w
    exact ⟨fun _ _ => rfl, trivial, trivial⟩
  case perform =>
    intro o gas w rest ih
    obtain ⟨hshows, hspent⟩ := h.gas_perform frame gas w o
    refine ⟨fun result hending => ?_, ⟨hshows, ?_⟩, ih.calls⟩
    · have htotal := ih.total result hending
      simp only [Run.gas_mapTrace, Run.trace_mapTrace, Trace.gasSpent]
      omega
    · -- no more is spent than there is, so the difference in the books is exact
      have hgas : gas.toNat - o.gasSpent (h.perform frame gas w o).1 =
          (h.perform frame gas w o).2.1.toNat := by omega
      rw [hgas]
      exact ih.books
  case declined =>
    intro call e gas w rest _ ih
    exact ⟨ih.total, ih.books, ih.calls⟩
  case aborted =>
    intro call m reserved gas w d hreserve hd hending
    obtain ⟨hgas, hcalls⟩ := hdispatch (call.request frame reserved) w
    rw [← hd] at hgas hcalls
    have hsub := Gas.toNat_of_sub?_eq_some ((h.reserve_eq_ok_iff gas call).mp hreserve).2
    have hgiven : d.record.request.gas.toNat ≤ gas.toNat := by
      rw [hgas]
      change call.gas.toNat ≤ gas.toNat
      omega
    refine ⟨fun _ h => (nomatch h), ⟨hgiven, fun outcome hreturned => ?_, trivial⟩, hcalls, trivial⟩
    rw [hending] at hreturned
    cases hreturned
  case returned =>
    intro call outcome reserved gas w d rest hreserve hd hending ih
    obtain ⟨hgas, hcalls⟩ := hdispatch (call.request frame reserved) w
    rw [← hd] at hgas hcalls
    have htotal := hcalls.1.total outcome hending
    rw [hgas] at htotal
    obtain ⟨hgiven, hfits, hsum, hleft⟩ := Host.gas_reserve hreserve htotal
    refine ⟨fun result hresult => ?_, ⟨?_, ?_, ?_⟩, hcalls, ih.calls⟩
    · have hrest := ih.total result hresult
      rw [hleft] at hrest
      change call.gas.toNat ≤ gas.toNat at hgiven
      change outcome.gasLeft.toNat + _ = call.gas.toNat at htotal
      simp only [Run.gas_mapTrace, Run.trace_mapTrace, Trace.gasSpent]
      omega
    · rw [hgas]
      exact hgiven
    · intro outcome' hreturned
      rw [hending] at hreturned
      cases hreturned
      rw [hgas]
      exact ⟨hfits, hsum⟩
    · rw [← hleft]
      exact ih.books

/-! ### Calls -/

theorem Dispatched.balanced_settle {s : Setting} {r : Request} {c : CallContext} {id : Nat}
    {found : State} {handling : Handling} {callee : Run Bytes}
    (hrefusal : handling.isRefusal = false)
    (htotal : ∀ result, callee.ending = .returned result →
      CallResult.forfeitsGas result = false →
        callee.gas.toNat + r.calleeGas s (callee.trace.gasSpent s) = r.gas.toNat)
    (hbooks : callee.trace.Books s r.gas.toNat)
    (hcalls : callee.trace.EachCall (CallRecord.Balanced s)) :
    (settle r c id found handling callee).EachCall (CallRecord.Balanced s) := by
  rw [EachCall, body_settle]
  refine ⟨⟨fun outcome hreturned => ?_, ?_⟩, hcalls⟩
  · cases hending : callee.ending with
    | aborted m =>
      rw [settle_of_aborted _ _ _ _ _ _ hending] at hreturned
      cases hreturned
    | returned result =>
      have htotal := htotal result hending
      cases result with
      | ok output =>
        rw [settle_of_ok _ _ _ _ _ _ hending] at hreturned ⊢
        cases hreturned
        simpa [CallRecord.gasSpent, hrefusal, CallRecord.forfeitsGas, CallResult.forfeitsGas]
          using htotal rfl
      | error e =>
        rw [settle_of_error _ _ _ _ _ _ hending] at hreturned ⊢
        cases hreturned
        cases hrevert : e.isRevert with
        | true =>
          simp only [CallResult.forfeitsGas, hrevert, Bool.not_true, true_implies] at htotal
          simpa [CallRecord.gasSpent, hrefusal, CallRecord.forfeitsGas, CallResult.forfeitsGas,
            hrevert] using htotal
        | false =>
          simp [CallRecord.gasSpent, hrefusal, CallRecord.forfeitsGas, CallResult.forfeitsGas,
            hrevert]
  · rw [request_settle]
    exact hbooks

theorem Dispatched.balanced_refused {s : Setting} {r : Request} {c : CallContext}
    {handling : Handling} {e : CallError} {w : World} (hrefusal : handling.isRefusal = true) :
    (refused r c handling e w).EachCall (CallRecord.Balanced s) := by
  refine ⟨⟨fun outcome hreturned => ?_, trivial⟩, trivial⟩
  cases hreturned
  change r.gas.toNat + (if handling.isRefusal then 0 else _) = r.gas.toNat
  rw [if_pos hrefusal, Nat.add_zero]

/-- A callee has spent its price or, if it is a routine, what its transcript shows. Nothing is said
of a failure that takes all the gas, since it does so whatever has been spent. -/
theorem Request.Handled.balanced {s : Setting} {levels : Nat} {c : CallContext} {r : Request}
    {w : World} {handling : Handling} {callee : Run Bytes}
    (hdispatch : ∀ c r w, (dispatch s levels c r w).record.request.gas = r.gas ∧
      (dispatch s levels c r w).EachCall (CallRecord.Balanced s))
    (h : r.Handled s levels c w handling callee) :
    (∀ result, callee.ending = .returned result → CallResult.forfeitsGas result = false →
      callee.gas.toNat + r.calleeGas s (callee.trace.gasSpent s) = r.gas.toNat) ∧
    callee.trace.Books s r.gas.toNat ∧ callee.trace.EachCall (CallRecord.Balanced s) := by
  cases h with
  | codeless hactive =>
    refine ⟨fun _ _ _ => ?_, trivial, trivial⟩
    simp only [calleeGas, hactive, Nat.add_zero]
  | stateless hactive hgas =>
    refine ⟨fun _ _ _ => ?_, trivial, trivial⟩
    simp only [calleeGas, hactive]
    exact Gas.toNat_of_sub?_eq_some hgas
  | underpaid | parentless =>
    refine ⟨fun result hending => ?_, trivial, trivial⟩
    cases hending
    exact fun h => nomatch h
  | uncountable => exact ⟨fun _ h => (nomatch h), trivial, trivial⟩
  | @entered routine frame hactive hframe hdepth =>
    have hrun : ((routine r.input).run (s.host levels (c.enter r.callType)) frame r.gas
        w).Balanced s r.gas :=
      Program.balanced_run (fun r w => hdispatch _ r w) _ _ _
    refine ⟨fun result hending _ => ?_, hrun.books, hrun.calls⟩
    simp only [calleeGas, hactive]
    exact hrun.total result hending

theorem Request.Handled.isRefusal {s : Setting} {levels : Nat} {c : CallContext} {r : Request}
    {w : World} {handling : Handling} {callee : Run Bytes}
    (h : r.Handled s levels c w handling callee) : handling.isRefusal = false := by
  cases h <;> rfl

theorem dispatch_balanced (s : Setting) (levels : Nat) (c : CallContext) (r : Request)
    (w : World) : (dispatch s levels c r w).record.request.gas = r.gas ∧
      (dispatch s levels c r w).EachCall (CallRecord.Balanced s) := by
  refine dispatch_induction (P := fun _ r _ d => d.record.request.gas = r.gas ∧
    d.EachCall (CallRecord.Balanced s)) ?tooDeep ?executed levels c r w
  case tooDeep =>
    intro c r w
    exact ⟨rfl, Dispatched.balanced_refused rfl⟩
  case executed =>
    intro levels ih c r w d hd
    cases hd with
    | unfunded => exact ⟨rfl, Dispatched.balanced_refused rfl⟩
    | overfull =>
      refine ⟨by rw [Dispatched.request_settle, Request.gas_made], ?_⟩
      refine Dispatched.balanced_settle rfl (fun result hending => ?_) trivial trivial
      cases hending
      exact fun h => nomatch h
    | @handled _ found hfund handling callee hhandled =>
      refine ⟨by rw [Dispatched.request_settle, Request.gas_made], ?_⟩
      obtain ⟨htotal, hbooks, hcalls⟩ := hhandled.balanced ih
      exact Dispatched.balanced_settle hhandled.isRefusal htotal hbooks hcalls

theorem Request.Executed.isRefusal_iff {s : Setting} {levels : Nat} {c : CallContext}
    {r : Request} {w : World} {d : Dispatched} (h : r.Executed s levels c w d) :
    d.record.handling.isRefusal = true ↔
      w.state.accounts.balance r.caller.address < r.carriedValue := by
  cases h with
  | unfunded hbalance => exact ⟨fun _ => hbalance, fun _ => rfl⟩
  | overfull hbalance =>
    rw [Dispatched.handling_settle]
    exact ⟨fun h => (nomatch h), fun h => absurd h hbalance⟩
  | handled hbalance hfund hhandled =>
    rw [Dispatched.handling_settle, hhandled.isRefusal]
    exact ⟨fun h => (nomatch h), fun h => absurd h hbalance⟩

theorem Engine.isRefusal_dispatch (e : Engine) (r : Request) :
    (e.dispatch r).record.handling.isRefusal = true ↔
      e.setting.maxDepth < e.context.depth ∨
        e.world.state.accounts.balance r.caller.address < r.carriedValue := by
  unfold dispatch
  by_cases hdepth : e.setting.maxDepth < e.context.depth
  · rw [dispatch_levels_of_lt _ _ _ _ hdepth]
    exact ⟨fun _ => .inl hdepth, fun _ => rfl⟩
  · rw [dispatch_levels_of_le _ _ _ _ (Nat.le_of_not_lt hdepth),
      (r.executed_execute _ _ _ _).isRefusal_iff]
    exact ⟨.inr, fun h => h.resolve_left hdepth⟩

/-- Every call that returns gives back what it was given less what it has spent, and so does every
call inside of it, with the books of each frame in order. The calls that count as refused are those
made too deep and those whose caller's balance is below the value. -/
theorem Engine.gas_ledger (e : Engine) (r : Request) :
    (∀ outcome, (e.dispatch r).record.ending = .returned outcome →
      outcome.gasLeft.toNat + (e.dispatch r).gasSpent e.setting = r.gas.toNat) ∧
    (e.dispatch r).EachCall (CallRecord.Balanced e.setting) ∧
    ((e.dispatch r).record.handling.isRefusal = true ↔
      e.setting.maxDepth < e.context.depth ∨
        e.world.state.accounts.balance r.caller.address < r.carriedValue) := by
  obtain ⟨hgas, hcalls⟩ := dispatch_balanced e.setting (e.setting.levels e.context.depth)
    e.context r e.world
  refine ⟨fun outcome hreturned => ?_, hcalls, e.isRefusal_dispatch r⟩
  rw [← hgas]
  exact hcalls.1.total outcome hreturned

namespace Spender

/-- Spends gas, asks for more than there is, and makes a nested call that pays a price, one that
fails with what it was given and one that it has no gas for. -/
def spender (_ : Bytes) : Program Bytes := do
  Program.charge 100
  discard <| Program.useGas 5000
  discard <| Program.callOut { target := 4, input := [1], gas := 200, value := 0 }
  discard <| Program.callOut { target := 0xb0, input := [], gas := 300, value := 0 }
  discard <| Program.callOut { target := 4, input := [], gas := 5000, value := 0 }
  pure []

def wasteful (_ : Bytes) : Program Bytes := do
  Program.charge 10
  .fail .headerUnavailable

def engine : Engine :=
  Engine.create {}
    (WordMap.ofList
      [(4, .stateless (fun input => 15 + 3 * UInt64.ofNat input.length) .ok),
        (0xa0, .stateful spender), (0xb0, .stateful wasteful)])

def request : Request :=
  { callType := .call, caller := .account 0xc0, target := 0xa0, input := [], gas := 1000,
    value := 0 }

/-- Of 1000 the routine spends 100 itself, 18 on the price and 300 on the failure. -/
theorem engine_gas_ledger :
    (engine.dispatch request).record.ending = .returned ⟨.ok [], 582⟩ ∧
    (engine.dispatch request).gasSpent engine.setting = 418 ∧
    (582 : Gas).toNat + (engine.dispatch request).gasSpent engine.setting = 1000 ∧
    (engine.dispatch request).EachCall (CallRecord.Balanced engine.setting) := by
  obtain ⟨htotal, hcalls, -⟩ := Engine.gas_ledger engine request
  exact ⟨rfl, rfl, htotal _ rfl, hcalls⟩

end Spender

end PrecompileHost
