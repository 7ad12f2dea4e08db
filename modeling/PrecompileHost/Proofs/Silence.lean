import PrecompileHost.Proofs.Session

/-!
Programs from which every invalidation has been deleted. Each run of a silenced program goes as the
run of the program itself does, with the same answers at the same times; all that is missing is the
invalidations, in the transcript and among the reasons. Which reason was pending before is of no
consequence either, so the two runs may be started with different ones.
-/

namespace PrecompileHost

namespace WordMap

variable {w : Nat} {α β : Type}

/-- The map with `f` applied to each value. -/
def mapValues (f : α → β) (m : WordMap w α) : WordMap w β :=
  ⟨m.entries.map fun e => (e.1, f e.2), List.pairwise_map.mpr m.ascending⟩

theorem lookupEntry_map (f : α → β) (k : BitVec w) (l : List (BitVec w × α)) :
    lookupEntry k (l.map fun e => (e.1, f e.2)) = (lookupEntry k l).map f := by
  induction l with
  | nil => rfl
  | cons e rest ih =>
    simp only [List.map_cons, lookupEntry, ih]
    split <;> rfl

@[simp] theorem get?_mapValues (f : α → β) (m : WordMap w α) (k : BitVec w) :
    (m.mapValues f).get? k = (m.get? k).map f :=
  lookupEntry_map f k m.entries

@[simp] theorem keys_mapValues (f : α → β) (m : WordMap w α) :
    (m.mapValues f).keys = m.keys :=
  List.map_map

@[simp] theorem mapValues_empty (f : α → β) : (∅ : WordMap w α).mapValues f = ∅ := rfl

theorem mapValues_insert (f : α → β) (m : WordMap w α) (k : BitVec w) (v : α) :
    (m.insert k v).mapValues f = (m.mapValues f).insert k (f v) := by
  refine ext_get? fun j => ?_
  simp only [get?_mapValues, get?_insert]
  split <;> rfl

end WordMap

/-! ### Programs without invalidations -/

/-- Performs an operation and goes on, or only goes on if it would be an invalidation. -/
def Operation.orSkip {α : Type} : (o : Operation) → (o.Answer → Program α) → Program α
  | .invalidate _, next => next ()
  | .observe, next => .perform .observe next
  | .chain, next => .perform .chain next
  | .useGas amount, next => .perform (.useGas amount) next
  | .read query, next => .perform (.read query) next
  | .write mutation, next => .perform (.write mutation) next
  | .log event, next => .perform (.log event) next

/-- The routine with every invalidation deleted. -/
def Program.silenced {α : Type} : Program α → Program α
  | .pure a => .pure a
  | .fail e => .fail e
  | .abort m => .abort m
  | .perform o next => o.orSkip fun answer => (next answer).silenced
  | .call c next => .call c fun result => (next result).silenced

def Precompile.silenced : Precompile → Precompile
  | .stateless price run => .stateless price run
  | .stateful routine => .stateful fun input => (routine input).silenced

def Registry.silenced (r : Registry) : Registry :=
  r.mapValues Precompile.silenced

def Setting.silenced (s : Setting) : Setting :=
  { s with active := s.active.silenced }

/-- The engine with every invalidation deleted from its programs, and with the pending reason
`reason?`. -/
def Engine.silenced (e : Engine) (reason? : Option String) : Engine :=
  { e with
    setting := e.setting.silenced
    registered := e.registered.silenced
    world.invalidation := reason? }

/-! ### Runs without invalidations -/

def World.pending (w : World) (reason? : Option String) : World :=
  { w with invalidation := reason? }

/-- The entry of an operation in a transcript, unless it is an invalidation. -/
def Operation.orOmit : (o : Operation) → o.Answer → Trace → Trace
  | .invalidate _, _, rest => rest
  | .observe, answer, rest => .performed .observe answer rest
  | .chain, answer, rest => .performed .chain answer rest
  | .useGas amount, answer, rest => .performed (.useGas amount) answer rest
  | .read query, answer, rest => .performed (.read query) answer rest
  | .write mutation, answer, rest => .performed (.write mutation) answer rest
  | .log event, answer, rest => .performed (.log event) answer rest

/-- The transcript without invalidations, those in nested calls included. -/
def Trace.silenced : Trace → Trace
  | .done => .done
  | .performed o answer rest => o.orOmit answer rest.silenced
  | .declined c e rest => .declined c e rest.silenced
  | .called r body rest => .called r body.silenced rest.silenced

def Run.silenced {α : Type} (run : Run α) (reason? : Option String) : Run α :=
  { run with trace := run.trace.silenced, world := run.world.pending reason? }

/-- The call as it would have been without invalidations: all but the transcript and the pending
reason stays. -/
def Dispatched.silenced (d : Dispatched) (reason? : Option String) : Dispatched :=
  { record := d.record, body := d.body.silenced, world := d.world.pending reason? }

@[simp] theorem Dispatched.record_silenced (d : Dispatched) (reason? : Option String) :
    (d.silenced reason?).record = d.record := rfl

/-- The attempt at a nested call as it would have been without invalidations. -/
def Attempt.silenced (a : Attempt) (reason? : Option String) : Attempt :=
  match a with
  | .declined e => .declined e
  | .aborted m gas d => .aborted m gas (d.silenced reason?)
  | .returned result gas d => .returned result gas (d.silenced reason?)

namespace Operation

variable {o : Operation} (ho : ∀ reason, o ≠ .invalidate reason)

include ho

theorem orSkip_of_ne {α : Type} (next : o.Answer → Program α) :
    o.orSkip next = .perform o next := by
  cases o with
  | invalidate reason => exact absurd rfl (ho reason)
  | observe | chain | useGas | read | write | log => rfl

theorem orOmit_of_ne (answer : o.Answer) (rest : Trace) :
    o.orOmit answer rest = .performed o answer rest := by
  cases o with
  | invalidate reason => exact absurd rfl (ho reason)
  | observe | chain | useGas | read | write | log => rfl

end Operation

/-- The host does for silenced routines what `h` does for the routines themselves. -/
structure Host.Silences (h' h : Host) : Prop where
  setting : h'.setting = h.setting.silenced
  context : h'.context = h.context
  dispatch : ∀ r (w : World) reason?,
    h'.dispatch r (w.pending reason?) = (h.dispatch r w).silenced reason?

namespace Host.Silences

variable {h h' : Host} (hs : h'.Silences h) (f : Frame) (gas : Gas) (w : World)
  (reason? : Option String)

include hs

/-- Only an invalidation looks at the pending reason, and none looks at what is active. -/
theorem perform_of_ne {o : Operation} (ho : ∀ reason, o ≠ .invalidate reason) :
    h'.perform f gas (w.pending reason?) o =
      ((h.perform f gas w o).1, (h.perform f gas w o).2.1,
        (h.perform f gas w o).2.2.pending reason?) := by
  cases o with
  | invalidate reason => exact absurd rfl (ho reason)
  | useGas amount =>
    unfold perform
    dsimp only
    split <;> rfl
  | write m =>
    unfold perform
    rw [hs.context]
    dsimp only
    split <;> rfl
  | observe | chain =>
    unfold perform
    rw [hs.setting]
    simp only [hs.context]
    rfl
  | read | log => rfl

theorem attempt (c : NestedCall) :
    h'.attempt f gas (w.pending reason?) c = (h.attempt f gas w c).silenced reason? := by
  have hreserve : h'.reserve gas c = h.reserve gas c := by
    unfold Host.reserve
    rw [hs.context]
  unfold Host.attempt
  rw [hreserve]
  cases h.reserve gas c with
  | error e => rfl
  | ok left =>
    dsimp only
    rw [hs.dispatch, Dispatched.record_silenced]
    cases (h.dispatch (c.request f left) w).record.ending with
    | aborted m => rfl
    | returned outcome => rfl

theorem run {α : Type} (p : Program α) :
    p.silenced.run h' f gas (w.pending reason?) = (p.run h f gas w).silenced reason? := by
  induction p generalizing gas w with
  | pure | fail | abort => rfl
  | perform o next ih =>
    by_cases ho : ∃ reason, o = .invalidate reason
    · obtain ⟨reason, rfl⟩ := ho
      exact ih () gas (w.invalidate reason)
    · have hne : ∀ reason, o ≠ .invalidate reason := fun reason heq => ho ⟨reason, heq⟩
      rw [Program.silenced, Operation.orSkip_of_ne hne, Program.run_perform, Program.run_perform,
        hs.perform_of_ne f gas w reason? hne]
      dsimp only
      rw [ih]
      simp only [Run.silenced, Run.mapTrace, Trace.silenced, Operation.orOmit_of_ne hne]
  | call c next ih =>
    have hsilenced := hs.attempt f gas w reason? c
    rw [Program.silenced]
    cases hattempt : h.attempt f gas w c with
    | declined e =>
      rw [hattempt] at hsilenced
      rw [Program.run_call_of_declined _ _ _ _ _ hsilenced,
        Program.run_call_of_declined _ _ _ _ _ hattempt, ih]
      rfl
    | aborted m left d =>
      rw [hattempt] at hsilenced
      rw [Program.run_call_of_aborted _ _ _ _ _ hsilenced,
        Program.run_call_of_aborted _ _ _ _ _ hattempt]
      rfl
    | returned result left d =>
      rw [hattempt] at hsilenced
      rw [Program.run_call_of_returned _ _ _ _ _ hsilenced,
        Program.run_call_of_returned _ _ _ _ _ hattempt]
      change ((next result).silenced.run h' f left (d.world.pending reason?)).mapTrace _ = _
      rw [ih]
      rfl

end Host.Silences

/-! ### Calls without invalidations -/

theorem Dispatched.settle_silenced (r : Request) (c : CallContext) (id : Nat) (found : State)
    (handling : Handling) (callee : Run Bytes) (reason? : Option String) :
    settle r c id found handling (callee.silenced reason?) =
      (settle r c id found handling callee).silenced reason? := by
  obtain ⟨ending, gas, w, trace⟩ := callee
  cases ending with
  | aborted m => rfl
  | returned result => cases result <;> rfl

namespace Request

variable {s : Setting} {nested nested' : CallContext → Request → World → Dispatched}
  (hnested : ∀ c r (w : World) reason?,
    nested' c r (w.pending reason?) = (nested c r w).silenced reason?)

include hnested

theorem runTarget_silenced (r : Request) (c : CallContext) (w : World)
    (reason? : Option String) :
    r.runTarget s.silenced nested' c (w.pending reason?) =
      ((r.runTarget s nested c w).1, (r.runTarget s nested c w).2.silenced reason?) := by
  have hactive : s.silenced.active.get? r.target =
      (s.active.get? r.target).map Precompile.silenced := WordMap.get?_mapValues ..
  unfold runTarget
  rw [hactive]
  cases s.active.get? r.target with
  | none => rfl
  | some p =>
    cases p with
    | stateless price run =>
      simp only [Option.map_some, Precompile.silenced]
      split <;> rfl
    | stateful routine =>
      simp only [Option.map_some, Precompile.silenced, enter]
      cases r.frame? with
      | none => rfl
      | some f =>
        dsimp only
        split
        · rfl
        · have hs : Host.Silences
              { setting := s.silenced, context := c.enter r.callType,
                dispatch := nested' (c.enter r.callType) }
              { setting := s, context := c.enter r.callType,
                dispatch := nested (c.enter r.callType) } :=
            ⟨rfl, rfl, hnested _⟩
          rw [hs.run f r.gas w reason? (routine r.input)]

theorem execute_silenced (r : Request) (c : CallContext) (w : World) (reason? : Option String) :
    r.execute s.silenced nested' c (w.pending reason?) =
      (r.execute s nested c w).silenced reason? := by
  by_cases hbalance : w.state.accounts.balance r.caller.address < r.carriedValue
  · rw [execute_of_unfunded hbalance, execute_of_unfunded (w := w.pending reason?) hbalance]
    rfl
  · cases hfund : r.made.fund? w.state.snapshot.2 with
    | none =>
      rw [execute_of_overfull hbalance hfund,
        execute_of_overfull (w := w.pending reason?) hbalance hfund]
      rfl
    | some found =>
      have hrun := runTarget_silenced hnested (s := s) r.made c { w with state := found } reason?
      have hworld : { w.pending reason? with state := found } =
          World.pending { w with state := found } reason? := rfl
      rw [execute_of_funded hbalance hfund,
        execute_of_funded (w := w.pending reason?) hbalance hfund, hworld, hrun,
        ← Dispatched.settle_silenced]
      rfl

end Request

/-- A call goes with silenced programs as it goes with the programs themselves, whatever reason is
pending. -/
theorem dispatch_silenced (s : Setting) (levels : Nat) (c : CallContext) (r : Request) (w : World)
    (reason? : Option String) :
    dispatch s.silenced levels c r (w.pending reason?) =
      (dispatch s levels c r w).silenced reason? := by
  induction levels generalizing c r w reason? with
  | zero => rfl
  | succ levels ih => exact Request.execute_silenced ih r c w reason?

/-! ### Engines without invalidations -/

namespace Registry

theorem select_silenced (r : Registry) (chosen : List Address) :
    r.silenced.select chosen = (r.select chosen).silenced := by
  unfold select silenced
  rw [← WordMap.mapValues_empty Precompile.silenced]
  refine List.foldl_hom (WordMap.mapValues Precompile.silenced) fun selected a => ?_
  rw [WordMap.get?_mapValues]
  cases r.get? a with
  | none => rfl
  | some p => exact (WordMap.mapValues_insert ..).symm

theorem activate_silenced (r : Registry) (rules : Rules) (hooks : Hooks) :
    r.silenced.activate rules hooks = (r.activate rules hooks).silenced := by
  have hkeys : WordMap.keys r.silenced = r.keys := WordMap.keys_mapValues ..
  unfold activate
  rw [select_silenced, hkeys]

end Registry

namespace Engine

variable (e : Engine) (reason? : Option String)

/-- The programs of an engine are silenced where they are registered. -/
theorem reactivate_silenced :
    (e.silenced reason?).reactivate = e.reactivate.silenced reason? := by
  have hactivate := e.registered.activate_silenced e.setting.rules e.hooks
  unfold reactivate
  exact congrArg (fun active => { e.silenced reason? with setting.active := active }) hactivate

theorem dispatch_silenced (r : Request) :
    (e.silenced reason?).dispatch r = (e.dispatch r).silenced reason? :=
  PrecompileHost.dispatch_silenced e.setting _ e.context r e.world reason?

theorem call_transact_silenced (origin target : Address) (input : Bytes) (gas : Gas)
    (value : Word) :
    ((e.silenced reason?).transact origin target input gas value).call =
      (e.transact origin target input gas value).call.silenced none := by
  rw [call_transact, call_transact]
  exact (e.beginTransaction origin).dispatch_silenced none _

theorem engine_transact_silenced (origin target : Address) (input : Bytes) (gas : Gas)
    (value : Word) :
    ((e.silenced reason?).transact origin target input gas value).engine =
      (e.transact origin target input gas value).engine.silenced none := by
  have hcall := (e.beginTransaction origin).dispatch_silenced none
    { callType := .call, caller := .account origin, target, input, gas, value }
  change ((e.silenced reason?).beginTransaction origin).call (.account origin) target input gas
    value = ((e.beginTransaction origin).call (.account origin) target input gas value).silenced
      none at hcall
  unfold transact
  dsimp only
  rw [hcall, Dispatched.record_silenced]
  cases ((e.beginTransaction origin).call (.account origin) target input gas value).record.ending
    with
  | aborted m => rfl
  | returned outcome => rfl

/-- A step goes with silenced programs as it goes with the programs themselves. -/
theorem step_silenced (s : Step) :
    ∃ pending?, (e.silenced reason?).step s = (e.step s).silenced pending? ∧
      ∃ pending?, (e.silenced reason?).made? s =
        (e.made? s).map fun d => d.silenced pending? := by
  cases s with
  | call r =>
    have hcall := e.dispatch_silenced reason? r
    exact ⟨reason?, congrArg (e.silenced reason?).after hcall, reason?, congrArg some hcall⟩
  | transact origin target input gas value =>
    exact ⟨none, e.engine_transact_silenced reason? .., none,
      congrArg some (e.call_transact_silenced reason? ..)⟩
  | enterBlock | enterContext => exact ⟨reason?, rfl, none, rfl⟩

theorem run_silenced (steps : List Step) :
    ∃ pending?, (e.silenced reason?).run steps = (e.run steps).silenced pending? := by
  induction steps generalizing e reason? with
  | nil => exact ⟨reason?, rfl⟩
  | cons s steps ih =>
    obtain ⟨between?, hstep, -⟩ := e.step_silenced reason? s
    obtain ⟨pending?, hrun⟩ := ih (e.step s) between?
    refine ⟨pending?, ?_⟩
    rw [run, hstep, hrun]
    rfl

end Engine

end PrecompileHost
