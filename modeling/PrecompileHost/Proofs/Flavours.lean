import PrecompileHost.Native.Install
import PrecompileHost.Proofs.Leaves
import PrecompileHost.Proofs.Mint.Refusals
import PrecompileHost.Proofs.TokenDuality.Refusals

/-!
The shipped precompiles under calls of different types. What their routines look at is the caller
that contract code would see, and whether state may be written; the account that a call runs in, the
value that it shows and who has made it are of no consequence to them. A static call is told apart
where the first write would be, and no earlier.
-/

namespace PrecompileHost.Native

/-- The shipped precompiles, each with what it is set up with. -/
inductive Shipped
  | identity
  | mint (admin : Address)
  | tokenDuality (c : TokenDuality.Config)

namespace Shipped

def precompile : Shipped → Precompile
  | .identity => Identity.precompile
  | .mint admin => Mint.precompile admin
  | .tokenDuality c => TokenDuality.precompile c

/-- The failure of an input that decodes to no call. -/
def fault? : Shipped → Bytes → Option CallError
  | .identity, _ => none
  | .mint _, input =>
    match NativeTokenCall.decode input with
    | .error fault => some (.other fault.message)
    | .ok _ => none
  | .tokenDuality _, input =>
    match TokenDualityCall.decode input with
    | .error fault => some (.other fault.message)
    | .ok _ => none

/-- The call is one that changes nothing. -/
def looks : Shipped → Bytes → Bool
  | .identity, _ => true
  | .mint _, _ => false
  | .tokenDuality _, input =>
    match TokenDualityCall.decode input with
    | .error _ => false
    | .ok call => TokenDuality.looks call

/-- The error is one of decoding, of gas or of authority. -/
def Early (p : Shipped) (input : Bytes) (e : CallError) : Prop :=
  p.fault? input = some e ∨ e = .outOfGas ∨ e = Refusal.unauthorized.error

/-! ### Routines -/

/-- A routine of a shipped precompile. -/
inductive Runs : Shipped → (Bytes → Program Bytes) → Prop
  | mint (admin : Address) : Runs (.mint admin) (Mint.routine admin)
  | tokenDuality (c : TokenDuality.Config) : Runs (.tokenDuality c) (TokenDuality.routine c)

variable {p : Shipped} {routine : Bytes → Program Bytes} {input : Bytes}

theorem runs_of_stateful (h : p.precompile = .stateful routine) : p.Runs routine := by
  cases p with
  | identity => cases h
  | mint admin =>
    cases h
    exact .mint admin
  | tokenDuality c =>
    cases h
    exact .tokenDuality c

theorem Runs.leaf (hp : p.Runs routine) (input : Bytes) :
    (routine input).Leaf fun o => o.handlesSnapshots = false := by
  cases hp with
  | mint admin => exact Mint.leaf_routine admin input
  | tokenDuality c => exact TokenDuality.leaf_routine c input

variable {h h' : Host} {f f' : Frame} {gas : Gas} {w : World} {e : CallError}

theorem Runs.isRevert (hp : p.Runs routine) (he : (routine input).Fails h f gas w e) :
    e.isRevert = false := by
  cases hp with
  | mint admin => exact (Mint.fails_routine.mp he).isRevert
  | tokenDuality c =>
    rcases TokenDuality.fails_routine.mp he with ⟨fault, -, rfl⟩ | ⟨call, -, hrejected⟩
    · rfl
    · exact hrejected.isRevert

/-- Of its frame a routine looks at the caller alone. -/
theorem Runs.alike_of_caller (hp : p.Runs routine)
    (hcaller : f'.contract.caller = f.contract.caller) :
    ((routine input).run h f gas w).Alike ((routine input).run h f' gas w) := by
  refine (hp.leaf input).alike (fun output left after hok => ?_) fun e he => ⟨hp.isRevert he, ?_⟩
  · cases hp with
    | mint admin =>
      rw [Mint.yields_routine, hcaller]
      exact Mint.yields_routine.mp hok
    | tokenDuality c =>
      rw [TokenDuality.yields_routine, hcaller]
      exact TokenDuality.yields_routine.mp hok
  · cases hp with
    | mint admin =>
      rw [Mint.fails_routine, hcaller]
      exact Mint.fails_routine.mp he
    | tokenDuality c =>
      rw [TokenDuality.fails_routine, hcaller]
      exact TokenDuality.fails_routine.mp he

/-! ### Where state may not be written -/

/-- A call that changes nothing is indifferent to whether state may be written. -/
theorem Runs.alike_of_looks (hp : p.Runs routine) (hlooks : p.looks input = true)
    (hsetting : h'.setting = h.setting) (hcaller : f'.contract.caller = f.contract.caller) :
    ((routine input).run h f gas w).Alike ((routine input).run h' f' gas w) := by
  refine (hp.leaf input).alike (fun output left after hok => ?_) fun e he => ⟨hp.isRevert he, ?_⟩
  · cases hp with
    | mint admin => cases hlooks
    | tokenDuality c =>
      obtain ⟨call, hdecode, as, heffected, hgas, hafter⟩ := TokenDuality.yields_routine.mp hok
      simp only [looks, hdecode] at hlooks
      rw [TokenDuality.yields_routine, hcaller, hsetting]
      obtain ⟨hview, rfl⟩ := heffected.view_of_looks hlooks
      exact ⟨call, hdecode, _, .viewed hview, hgas, hafter⟩
  · cases hp with
    | mint admin => cases hlooks
    | tokenDuality c =>
      rw [TokenDuality.fails_routine, hcaller, hsetting]
      rcases TokenDuality.fails_routine.mp he with hfault | ⟨call, hdecode, hrejected⟩
      · exact .inl hfault
      · simp only [looks, hdecode] at hlooks
        refine .inr ⟨call, hdecode, ?_⟩
        rw [TokenDuality.rejected_iff_of_looks hlooks] at hrejected ⊢
        exact hrejected

theorem fault?_mint {admin : Address} :
    (mint admin).fault? input = some e ↔ Mint.Undecodable input e := by
  unfold Mint.Undecodable
  cases hdecode : NativeTokenCall.decode input with
  | error fault => simp [fault?, hdecode, eq_comm]
  | ok call => simp [fault?, hdecode]

theorem Runs.fails_of_early (hp : p.Runs routine) (hwritable : h.context.readOnly = false)
    (hsetting : h'.setting = h.setting) (hcaller : f'.contract.caller = f.contract.caller)
    (hearly : p.Early input e) (he : (routine input).Fails h f gas w e) :
    (routine input).Fails h' f' gas w e := by
  cases hp with
  | mint admin =>
    rw [Mint.fails_routine, hwritable] at he
    rw [Mint.fails_routine, hcaller]
    rw [Early, fault?_mint] at hearly
    exact he.of_early hearly _
  | tokenDuality c =>
    rw [TokenDuality.fails_routine, hwritable] at he
    rw [TokenDuality.fails_routine, hcaller, hsetting]
    rcases he with hfault | ⟨call, hdecode, hrejected⟩
    · exact .inl hfault
    · have hdecoded : Shipped.fault? (.tokenDuality c) input ≠ some e := by
        simp [fault?, hdecode]
      exact .inr ⟨call, hdecode, hrejected.of_early (hearly.resolve_left hdecoded) _⟩

theorem Runs.fails_of_late (hp : p.Runs routine) (hwritable : h.context.readOnly = false)
    (hreadOnly : h'.context.readOnly = true) (hcaller : f'.contract.caller = f.contract.caller)
    (hlooks : p.looks input = false)
    (hlate : ∀ e, p.Early input e → ¬ (routine input).Fails h f gas w e) :
    (routine input).Fails h' f' gas w .writeProtection := by
  cases hp with
  | mint admin =>
    rw [Mint.fails_routine, hcaller, hreadOnly]
    -- an early failure would have come up where state may be written, too
    refine Mint.rejected_of_late fun e hearly hrejected => ?_
    rw [← fault?_mint] at hearly
    refine hlate e hearly (Mint.fails_routine.mpr ?_)
    rw [hwritable]
    exact hrejected
  | tokenDuality c =>
    rw [TokenDuality.fails_routine, hcaller, hreadOnly]
    cases hdecode : TokenDualityCall.decode input with
    | error fault =>
      have hfault : (TokenDuality.routine c input).Fails h f gas w (.other fault.message) :=
        TokenDuality.fails_routine.mpr (.inl ⟨fault, hdecode, rfl⟩)
      refine absurd hfault (hlate _ (.inl ?_))
      simp only [fault?, hdecode]
    | ok call =>
      have hnot : ∀ e, Early (.tokenDuality c) input e →
          ¬ TokenDuality.Rejected c f.contract.caller h.setting.block.number false gas
            w.state.accounts call e := by
        intro e hearly hrejected
        refine hlate e hearly (TokenDuality.fails_routine.mpr (.inr ⟨call, hdecode, ?_⟩))
        rw [hwritable]
        exact hrejected
      simp only [looks, hdecode] at hlooks
      refine .inr ⟨call, rfl, ?_⟩
      exact TokenDuality.rejected_of_late hlooks (hnot _ (.inr (.inl rfl)))
        (hnot _ (.inr (.inr rfl)))

/-- Whether state may be written makes no difference to a call that ends so where it may: either
it changes nothing, or it has failed before its first write. -/
def Indifferent (p : Shipped) (input : Bytes) (ending : Ending Outcome) : Prop :=
  p.looks input = true ∨ ∃ e left, ending = .returned ⟨.error e, left⟩ ∧ p.Early input e

theorem Runs.settled_of_readOnly (hp : p.Runs routine) (hwritable : h.context.readOnly = false)
    (hreadOnly : h'.context.readOnly = true) (hsetting : h'.setting = h.setting)
    (hcaller : f'.contract.caller = f.contract.caller) :
    (p.Indifferent input ((routine input).run h f gas w).settled →
      ((routine input).run h' f' gas w).settled = ((routine input).run h f gas w).settled) ∧
    (¬ p.Indifferent input ((routine input).run h f gas w).settled →
      ((routine input).run h' f' gas w).settled = .returned ⟨.error .writeProtection, 0⟩) := by
  constructor
  · rintro (hlooks | ⟨e, left, hfailed, hearly⟩)
    · exact (hp.alike_of_looks hlooks hsetting hcaller).settled.symm
    · have hfails : (routine input).Fails h f gas w e := Run.ending_of_settled hfailed
      have hfails' : (routine input).Fails h' f' gas w e :=
        hp.fails_of_early hwritable hsetting hcaller hearly hfails
      rw [hfails.settled (hp.isRevert hfails), hfails'.settled (hp.isRevert hfails')]
  · intro hdiffers
    have hlooks : p.looks input = false :=
      Bool.eq_false_iff.mpr fun hlooks => hdiffers (.inl hlooks)
    have hlate : ∀ e, p.Early input e → ¬ (routine input).Fails h f gas w e := by
      intro e hearly hfails
      exact hdiffers (.inr ⟨e, 0, hfails.settled (hp.isRevert hfails), hearly⟩)
    exact (hp.fails_of_late hwritable hreadOnly hcaller hlooks hlate).settled rfl

/-! ### Calls -/

variable {engine : Engine} {target : Address}

theorem leaf_of_active {r : Request}
    (hactive : engine.setting.active.get? r.target = some p.precompile) :
    ∀ routine, engine.setting.active.get? r.target = some (.stateful routine) → ∀ input,
      (routine input).Leaf fun o => o.handlesSnapshots = false := by
  intro routine hroutine
  exact (runs_of_stateful (Option.some.inj (hactive.symm.trans hroutine))).leaf

theorem agrees_of_caller (hdepth : engine.context.depth ≤ engine.setting.maxDepth)
    {r r' : Request} (hactive : engine.setting.active.get? r.target = some p.precompile)
    (htarget : r'.target = r.target) (hinput : r'.input = r.input) (hgas : r'.gas = r.gas)
    (hr : r.Unmoved engine.world.state.accounts) (hr' : r'.Unmoved engine.world.state.accounts)
    (hframe : r.frame? = some f) (hframe' : r'.frame? = some f')
    (hcaller : f'.contract.caller = f.contract.caller)
    (hhost : engine.frameHost r'.callType = engine.frameHost r.callType) :
    (engine.dispatch r).Agrees (engine.dispatch r') := by
  refine Engine.agrees_dispatch hdepth (leaf_of_active hactive) htarget hr hr' ?_
  have hactive' : engine.setting.active.get? r'.target = some p.precompile := htarget ▸ hactive
  cases hp : p.precompile with
  | stateless price run =>
    rw [hp] at hactive hactive'
    rw [Engine.reached_of_stateless hactive, Engine.reached_of_stateless hactive', hinput, hgas]
    exact .refl _
  | stateful routine =>
    rw [hp] at hactive hactive'
    rw [Engine.reached_of_stateful hactive hframe, Engine.reached_of_stateful hactive' hframe',
      hinput, hgas, hhost]
    split
    · exact .refl _
    · exact (runs_of_stateful hp).alike_of_caller hcaller

theorem ending_staticCall (hdepth : engine.context.depth ≤ engine.setting.maxDepth)
    (hwritable : engine.context.readOnly = false)
    (hactive : engine.setting.active.get? target = some p.precompile) {caller caller' : Caller}
    (hcaller : caller'.address = caller.address) (input : Bytes) (gas : Gas) :
    (p.Indifferent input (engine.call caller target input gas 0).record.ending ∨
        (∃ m, (engine.call caller target input gas 0).record.ending = .aborted m) →
      (engine.staticCall caller' target input gas).record.ending =
        (engine.call caller target input gas 0).record.ending) ∧
    (¬ p.Indifferent input (engine.call caller target input gas 0).record.ending →
      (∀ m, (engine.call caller target input gas 0).record.ending ≠ .aborted m) →
        (engine.staticCall caller' target input gas).record.ending =
          .returned ⟨.error .writeProtection, 0⟩) := by
  have hplain := Engine.ending_dispatch hdepth
    (r := { callType := .call, caller, target, input, gas, value := 0 })
    ⟨BitVec.not_lt_zero, rfl⟩
  have hstatic := Engine.ending_dispatch hdepth
    (r := { callType := .staticCall, caller := caller', target, input, gas, value := 0 })
    ⟨BitVec.not_lt_zero, rfl⟩
  change (engine.call caller target input gas 0).record.ending = _ at hplain
  change (engine.staticCall caller' target input gas).record.ending = _ at hstatic
  cases hp : p.precompile with
  | stateless price run =>
    rw [hp] at hactive
    -- a precompile without a frame writes nothing
    have hlooks : p.looks input = true := by
      cases p with
      | identity => rfl
      | mint | tokenDuality => cases hp
    rw [Engine.reached_of_stateless hactive] at hplain hstatic
    exact ⟨fun _ => hstatic.trans hplain.symm, fun hnot => absurd (.inl hlooks) hnot⟩
  | stateful routine =>
    rw [hp] at hactive
    rw [Engine.reached_of_stateful hactive rfl] at hplain hstatic
    by_cases hdeep : CallContext.depthLimit ≤ engine.context.depth + 1
    · -- neither call can be counted, and both are abandoned
      rw [if_pos hdeep] at hplain hstatic
      exact ⟨fun _ => hstatic.trans hplain.symm, fun _ hreturns => absurd hplain (hreturns _)⟩
    · rw [if_neg hdeep] at hplain hstatic
      have hwritable' : (engine.frameHost .call).context.readOnly = false := by
        change (engine.context.readOnly || false) = false
        rw [hwritable]
        rfl
      have hreadOnly : (engine.frameHost .staticCall).context.readOnly = true :=
        Bool.or_true _
      have hruns := runs_of_stateful hp
      rw [hplain, hstatic]
      constructor
      · rintro (hindifferent | ⟨m, haborted⟩)
        · refine (hruns.settled_of_readOnly hwritable' hreadOnly rfl ?_).1 hindifferent
          exact hcaller
        · exact absurd haborted (Program.Leaf.settled_ne_aborted (hruns.leaf input) m)
      · intro hdiffers _
        refine (hruns.settled_of_readOnly hwritable' hreadOnly rfl ?_).2 hdiffers
        exact hcaller

end Shipped

/-- Wherever a shipped precompile is active, however it is set up: a delegate call of it agrees with
a plain call that the caller of the delegating frame makes without value, and a call in the caller's
own account agrees with a plain call without value, whatever value it shows. So does a static call,
if it changes nothing or if the plain call fails in decoding, for want of gas or for want of
authority; otherwise it fails for being a write, with no gas left and nothing changed. -/
theorem call_flavours (p : Shipped) (engine : Engine)
    (hdepth : engine.context.depth ≤ engine.setting.maxDepth)
    (hwritable : engine.context.readOnly = false) (target : Address)
    (hactive : engine.setting.active.get? target = some p.precompile) (input : Bytes) (gas : Gas) :
    (∀ (parent : Contract) (caller : Caller), caller.address = parent.caller →
      (engine.delegateCall (.frame parent) target input gas).Agrees
        (engine.call caller target input gas 0)) ∧
    (∀ (caller caller' : Caller) (value : Word), caller'.address = caller.address →
      value ≤ engine.world.state.accounts.balance caller.address →
        (engine.callCode caller target input gas value).Agrees
          (engine.call caller' target input gas 0)) ∧
    ∀ caller caller' : Caller, caller'.address = caller.address →
      (p.Indifferent input (engine.call caller target input gas 0).record.ending ∨
          (∃ m, (engine.call caller target input gas 0).record.ending = .aborted m) →
        (engine.staticCall caller' target input gas).record.ending =
          (engine.call caller target input gas 0).record.ending) ∧
      (¬ p.Indifferent input (engine.call caller target input gas 0).record.ending →
        (∀ m, (engine.call caller target input gas 0).record.ending ≠ .aborted m) →
          (engine.staticCall caller' target input gas).record.ending =
              .returned ⟨.error .writeProtection, 0⟩ ∧
            (engine.staticCall caller' target input gas).world.state.accounts =
              engine.world.state.accounts) := by
  refine ⟨fun parent caller hcaller => ?_, fun caller caller' value hcaller hcovered => ?_,
    fun caller caller' hcaller => ?_⟩
  · refine Shipped.agrees_of_caller hdepth hactive rfl rfl rfl ⟨BitVec.not_lt_zero, rfl⟩
      ⟨BitVec.not_lt_zero, rfl⟩ rfl rfl ?_ ?_
    · exact hcaller
    · rfl
  · refine Shipped.agrees_of_caller hdepth hactive rfl rfl rfl ⟨?_, rfl⟩
      ⟨BitVec.not_lt_zero, rfl⟩ rfl rfl ?_ ?_
    · exact BitVec.not_lt.mpr hcovered
    · exact hcaller
    · rfl
  · obtain ⟨hsame, hprotected⟩ :=
      Shipped.ending_staticCall hdepth hwritable hactive hcaller input gas
    refine ⟨hsame, fun hdiffers hreturns => ?_⟩
    have hending := hprotected hdiffers hreturns
    exact ⟨hending, Engine.accounts_dispatch_of_error (Shipped.leaf_of_active hactive) hending⟩

namespace Wrapper

def config : TokenDuality.Config :=
  { admin := 0xa0, perBlockCap := some 100 }

def engine : Engine :=
  Engine.create { accounts := (∅ : Accounts).setBalance 0xa1 50 }
    (Config.install { tokenDuality := some config } ∅)

/-- A frame that the admin has called, with a value. -/
def wrapper : Contract :=
  { caller := 0xa0, address := 0xc0, value := 9, gas := 200000 }

def input : Bytes :=
  (TokenDualityCall.transfer 0xa1 0xb1 20).encode

/-- The wrapper delegates to the precompile and has the admin's authority there; who calls it in an
account of his own has not; and nobody transfers statically. -/
theorem engine_call_flavours :
    (engine.delegateCall (.frame wrapper) TokenDuality.address input 100000).record.ending =
      .returned ⟨.ok [], 51000⟩ ∧
    (engine.callCode (.account 0xa1) TokenDuality.address input 100000 50).record.ending =
      .returned ⟨.error Refusal.unauthorized.error, 0⟩ ∧
    (engine.staticCall (.account 0xa1) TokenDuality.address input 100000).record.ending =
      .returned ⟨.error Refusal.unauthorized.error, 0⟩ ∧
    (engine.staticCall (.account 0xa0) TokenDuality.address input 100000).record.ending =
      .returned ⟨.error .writeProtection, 0⟩ := by
  obtain ⟨hdelegate, hcode, hstatic⟩ := call_flavours (.tokenDuality config) engine (by decide) rfl
    TokenDuality.address rfl input 100000
  have hadmin : (engine.call (.account 0xa0) TokenDuality.address input 100000 0).record.ending =
      .returned ⟨.ok [], 51000⟩ := rfl
  have hother : (engine.call (.account 0xa1) TokenDuality.address input 100000 0).record.ending =
      .returned ⟨.error Refusal.unauthorized.error, 0⟩ := rfl
  refine ⟨?_, ?_, ?_, ?_⟩
  · rw [← hadmin]
    exact (hdelegate wrapper (.account 0xa0) rfl).1
  · rw [← hother]
    exact (hcode (.account 0xa1) (.account 0xa1) 50 rfl (by decide +kernel)).1
  · rw [← hother]
    exact (hstatic (.account 0xa1) (.account 0xa1) rfl).1
      (.inl (.inr ⟨_, _, hother, .inr (.inr rfl)⟩))
  · refine ((hstatic (.account 0xa0) (.account 0xa0) rfl).2 ?_ ?_).1
    · rw [hadmin]
      rintro (hlooks | ⟨e, left, ⟨⟩, -⟩)
      revert hlooks
      decide +kernel
    · rw [hadmin]
      rintro m ⟨⟩

end Wrapper

end PrecompileHost.Native
