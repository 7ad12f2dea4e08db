import PrecompileHost.Proofs.Session
import PrecompileHost.Registry.Lemmas

/-!
Which precompiles are active. An activation binds what its hook chooses out of a registry, in
whatever order and however often it is chosen. An engine chooses anew whenever its rules or its
hook change, and always out of all that was registered, so what is active depends on the latest
rules and the latest hook alone. Where nothing is active a call moves its value and runs nothing.
-/

namespace PrecompileHost

namespace Registry

/-- The chosen part of a registry: it lists what is both registered and chosen, in ascending order
and each address once, and binds it as it is registered. -/
structure Activates (r : Registry) (chosen : List Address) (active : Registry) : Prop where
  ascending : active.keys.Pairwise (· < ·)
  keys : ∀ a, a ∈ active.keys ↔ a ∈ r.keys ∧ a ∈ chosen
  bound : ∀ a ∈ active.keys, active.get? a = r.get? a

theorem activates_select (r : Registry) (chosen : List Address) :
    r.Activates chosen (r.select chosen) := by
  refine ⟨(r.select chosen).pairwise_keys, fun a => mem_keys_select, fun a ha => ?_⟩
  rw [get?_select, if_pos (mem_keys_select.mp ha).2]

end Registry

/-! ### Accounts without code -/

/-- What a call to an account without code comes to, where `levels` levels of calls may be made: it
gives back all of its gas and moves its value, unless it may not be made or the value cannot be
moved, and then nothing happens. -/
def Request.codeless (r : Request) (levels : Nat) (w : World) : Outcome × World :=
  if levels = 0 then (⟨.error .callDepthExceeded, r.gas⟩, w)
  else if w.state.accounts.balance r.caller.address < r.carriedValue then
    (⟨.error .insufficientBalance, r.gas⟩, w)
  else
    match w.state.accounts.transfer? r.caller.address r.target r.movedValue with
    | none => (⟨.error .insufficientBalance, 0⟩, w)
    | some accounts => (⟨.ok [], r.gas⟩, { w with state.accounts := accounts })

/-- The call has run nothing and comes to `result`. -/
structure Dispatched.Codeless (d : Dispatched) (result : Outcome × World) : Prop where
  body : d.body = .done
  ending : d.record.ending = .returned result.1
  world : d.world = result.2

theorem Request.execute_codeless {s : Setting} {r : Request} (h : s.active.get? r.target = none)
    (levels : Nat) (c : CallContext) (w : World) :
    (r.execute s (dispatch s levels) c w).Codeless (r.codeless (levels + 1) w) := by
  unfold codeless
  rw [if_neg (Nat.succ_ne_zero levels)]
  by_cases hbalance : w.state.accounts.balance r.caller.address < r.carriedValue
  · rw [execute_of_unfunded hbalance, if_pos hbalance]
    exact ⟨rfl, rfl, rfl⟩
  rw [if_neg hbalance]
  have hfund := r.fund?_made w.state.snapshot.2
  cases htransfer :
      w.state.accounts.transfer? r.caller.address r.target r.movedValue with
  | none =>
    rw [State.accounts_snapshot, htransfer] at hfund
    rw [execute_of_overfull hbalance hfund, Dispatched.settle_of_error _ _ _ _ _ _ rfl]
    refine ⟨rfl, rfl, ?_⟩
    dsimp only
    rw [w.state.revertTo_eq_of_snapshots rfl]
  | some accounts =>
    rw [State.accounts_snapshot, htransfer] at hfund
    have hrun : r.made.runTarget s (dispatch s levels) c
        { w with state := { w.state.snapshot.2 with accounts } } =
          (.codeless, ⟨.returned (.ok []), r.gas,
            { w with state := { w.state.snapshot.2 with accounts } }, .done⟩) := by
      unfold runTarget
      rw [target_made, h]
      rfl
    rw [execute_of_funded hbalance hfund, hrun, Dispatched.settle_of_ok _ _ _ _ _ _ rfl]
    refine ⟨rfl, rfl, ?_⟩
    exact congrArg (World.mk · w.invalidation)
      (w.state.commit_eq_of_snapshots w.state.snapshots_snapshot)

theorem dispatch_codeless {s : Setting} {r : Request} (h : s.active.get? r.target = none)
    (levels : Nat) (c : CallContext) (w : World) :
    (dispatch s levels c r w).Codeless (r.codeless levels w) := by
  cases levels with
  | zero => exact ⟨rfl, rfl, rfl⟩
  | succ levels => exact r.execute_codeless h levels c w

/-! ### Engines -/

namespace Engine

/-- What an engine can be adjusted to, and the steps that it may take in between. -/
inductive Adjustment
  | maxDepth (maxDepth : Nat)
  | chainId (chainId : UInt64)
  | rules (latest : Rules)
  | hooks (latest : Hooks)
  | block (block : Block)
  | header (header : Header)
  | step (s : Step)

def Adjustment.rules? : Adjustment → Option Rules
  | .rules latest => some latest
  | _ => none

def Adjustment.hooks? : Adjustment → Option Hooks
  | .hooks latest => some latest
  | _ => none

def adjust (e : Engine) : Adjustment → Engine
  | .maxDepth maxDepth => e.withMaxDepth maxDepth
  | .chainId chainId => e.withChainId chainId
  | .rules latest => e.withRules latest
  | .hooks latest => e.withHooks latest
  | .block block => e.withBlock block
  | .header header => e.withHeader header
  | .step s => e.step s

/-- The engine over `state` and `registered` after some adjustments. -/
def adjusted (state : State) (registered : Registry) (adjustments : List Adjustment) : Engine :=
  adjustments.foldl adjust (create state registered)

/-- The rules that the last adjustment of rules installs, if there is one. -/
def latestRules (adjustments : List Adjustment) : Rules :=
  (adjustments.filterMap Adjustment.rules?).getLastD {}

def latestHooks (adjustments : List Adjustment) : Hooks :=
  (adjustments.filterMap Adjustment.hooks?).getLastD Hooks.keepAll

/-- What is active is what `rules` and `hooks`, which are in force, choose out of all that is
registered. -/
structure Current (e : Engine) (registered : Registry) (rules : Rules) (hooks : Hooks) : Prop where
  registered_eq : e.registered = registered
  rules_eq : e.setting.rules = rules
  hooks_eq : e.hooks = hooks
  active_eq : e.setting.active = registered.activate rules hooks

variable {e : Engine} {registered : Registry} {rules : Rules} {hooks : Hooks}

theorem Current.step (h : e.Current registered rules hooks) (s : Step) :
    (e.step s).Current registered rules hooks := by
  have hactive := (e.active_step s).trans h.active_eq
  cases s with
  | transact origin target input gas value =>
    unfold Engine.step transact at hactive ⊢
    dsimp only at hactive ⊢
    split at hactive <;> exact ⟨h.registered_eq, h.rules_eq, h.hooks_eq, hactive⟩
  | call | enterBlock | enterContext => exact ⟨h.registered_eq, h.rules_eq, h.hooks_eq, hactive⟩

theorem Current.adjust (h : e.Current registered rules hooks) (a : Adjustment) :
    (e.adjust a).Current registered (a.rules?.getD rules) (a.hooks?.getD hooks) := by
  obtain ⟨rfl, rfl, rfl, hactive⟩ := h
  cases a with
  | rules | hooks => exact ⟨rfl, rfl, rfl, rfl⟩
  | maxDepth | chainId | block | header => exact ⟨rfl, rfl, rfl, hactive⟩
  | step s => exact Current.step ⟨rfl, rfl, rfl, hactive⟩ s

/-- Of what adjustments install, the last counts. -/
theorem getLastD_filterMap_cons {α : Type} (installed? : Adjustment → Option α) (a : Adjustment)
    (adjustments : List Adjustment) (before : α) :
    ((a :: adjustments).filterMap installed?).getLastD before =
      (adjustments.filterMap installed?).getLastD ((installed? a).getD before) := by
  rw [List.filterMap_cons]
  cases installed? a with
  | none => rfl
  | some latest => exact List.getLastD_cons ..

theorem Current.foldl_adjust (h : e.Current registered rules hooks)
    (adjustments : List Adjustment) :
    (adjustments.foldl Engine.adjust e).Current registered
      ((adjustments.filterMap Adjustment.rules?).getLastD rules)
      ((adjustments.filterMap Adjustment.hooks?).getLastD hooks) := by
  induction adjustments generalizing e rules hooks with
  | nil => exact h
  | cons a adjustments ih =>
    rw [getLastD_filterMap_cons, getLastD_filterMap_cons]
    exact ih (h.adjust a)

theorem current_adjusted (state : State) (registered : Registry) (adjustments : List Adjustment) :
    (adjusted state registered adjustments).Current registered (latestRules adjustments)
      (latestHooks adjustments) :=
  Current.foldl_adjust ⟨rfl, rfl, rfl, rfl⟩ adjustments

/-- An activation binds precisely what is registered and chosen, so it does not matter how often and
in which order that is chosen. Whatever an engine is adjusted to, its active precompiles are the
activation of all that was registered under the latest rules and the latest hook: a hook that keeps
everything brings everything back, and rules and hook may be installed in either order. A call of
any other address, nested or not, is one to an account without code. -/
theorem activation_current (state : State) (registered : Registry)
    (adjustments : List Adjustment) :
    (∀ rules hooks,
      registered.Activates (hooks rules registered.keys) (registered.activate rules hooks)) ∧
    (∀ (rules rules' : Rules) (hooks hooks' : Hooks),
      (∀ a, a ∈ hooks rules registered.keys ↔ a ∈ hooks' rules' registered.keys) →
        registered.activate rules hooks = registered.activate rules' hooks') ∧
    (adjusted state registered adjustments).setting.active =
      registered.activate (latestRules adjustments) (latestHooks adjustments) ∧
    (adjusted state registered (adjustments ++ [.hooks .keepAll])).setting.active = registered ∧
    (∀ rules hooks,
      adjusted state registered (adjustments ++ [.rules rules, .hooks hooks]) =
        adjusted state registered (adjustments ++ [.hooks hooks, .rules rules])) ∧
    ∀ (s : Setting) (levels : Nat) (c : CallContext) (r : Request) (w : World),
      s.active = (adjusted state registered adjustments).setting.active →
        r.target ∉ (adjusted state registered adjustments).setting.active.keys →
          (PrecompileHost.dispatch s levels c r w).Codeless (r.codeless levels w) := by
  have hcurrent := current_adjusted state registered adjustments
  refine ⟨fun rules hooks => registered.activates_select _,
    fun rules rules' hooks hooks' h => Registry.select_congr h, hcurrent.active_eq, ?_, ?_, ?_⟩
  · rw [adjusted, List.foldl_append]
    exact (hcurrent.adjust (.hooks .keepAll)).active_eq.trans registered.select_keys
  · intro rules hooks
    rw [adjusted, adjusted, List.foldl_append, List.foldl_append]
    rfl
  · intro s levels c r w hsame htarget
    refine dispatch_codeless ?_ levels c w
    rw [← hsame, WordMap.mem_keys_iff, not_exists] at htarget
    exact Option.eq_none_iff_forall_ne_some.mpr htarget

end Engine

namespace Rota

def echo : Precompile :=
  .stateless (fun _ => 1) .ok

def registered : Registry :=
  WordMap.ofList [(3, echo), (1, echo), (2, echo)]

def state : State :=
  { accounts := (∅ : Accounts).setBalance 0xc0 10 }

/-- Chooses the first address. From a fork on it chooses all but the last, out of order and more
than once, and another at which nothing is registered. -/
def staged : Hooks := fun rules registered =>
  if rules.isActive .cancun then 0xee :: (registered.reverse.drop 1 ++ registered.take 1)
  else registered.take 1

def adjustments : List Engine.Adjustment :=
  [.rules { latest := .london }, .hooks staged, .step (.transact 0xc0 3 [7] 100 4), .maxDepth 8,
    .rules { latest := .prague }]

def engine : Engine :=
  Engine.adjusted state registered adjustments

/-- What the earlier rules had dropped is active again, and what is not active may be paid. -/
theorem engine_activation_current :
    (Engine.adjusted state registered (adjustments.take 4)).setting.active.keys = [1] ∧
      engine.setting.active.keys = [1, 2] ∧
      registered.Activates [0xee, 2, 1, 1] engine.setting.active ∧
      (engine.call (.account 0xc0) 3 [7] 100 5).record.ending = .returned ⟨.ok [], 100⟩ ∧
      (engine.call (.account 0xc0) 3 [7] 100 5).world.state.accounts.balance 3 = 9 := by
  obtain ⟨hactivates, -, hactive, -, -, hcodeless⟩ :=
    Engine.activation_current state registered adjustments
  have hcall : (engine.call (.account 0xc0) 3 [7] 100 5).Codeless _ :=
    hcodeless _ _ _ _ _ rfl (by decide)
  refine ⟨by decide, by decide, ?_, hcall.ending, ?_⟩
  · exact hactive ▸ hactivates { latest := .prague } staged
  · rw [hcall.world]
    decide +kernel

end Rota

end PrecompileHost
