import PrecompileHost.Proofs.Flavours
import PrecompileHost.Proofs.GasLedger
import PrecompileHost.Proofs.Installation

/-!
Calls of the shipped precompiles with more gas than they need. What such a call does is decided
without a look at how much gas there is, apart from whether there is enough; so unless it runs out
of gas, it does the same with more, and of the additional gas it spends either nothing or, where a
failure takes all gas, all of it.
-/

namespace PrecompileHost

theorem Gas.sub?_of_le_of_eq_some {gas gas' amount left : Gas} (hle : gas ≤ gas')
    (h : sub? gas amount = some left) :
    ∃ left', sub? gas' amount = some left' ∧
      left'.toNat = left.toNat + (gas'.toNat - gas.toNat) := by
  have hamount : amount ≤ gas' := UInt64.le_trans (le_of_sub?_eq_some h) hle
  have hleft := toNat_of_sub?_eq_some h
  have hleft' := toNat_of_sub?_eq_some (sub?_of_le hamount)
  have hle' : gas.toNat ≤ gas'.toNat := UInt64.le_iff_toNat_le.mp hle
  exact ⟨_, sub?_of_le hamount, by omega⟩

/-- The same call, with other gas. -/
def Request.offered (r : Request) (gas : Gas) : Request :=
  { r with gas }

/-- How a call ends, beside how it ends with `spare` more gas. A success leaves the spare gas, and
so does a refusal; a failure of a call that was made leaves none in either case. -/
inductive Ending.Spares (refused : Bool) (spare : Nat) : Ending Outcome → Ending Outcome → Prop
  | success {output : Bytes} {left left' : Gas} (hleft : left'.toNat = left.toNat + spare) :
      Spares refused spare (.returned ⟨.ok output, left⟩) (.returned ⟨.ok output, left'⟩)
  | refusal {error : CallError} {left left' : Gas} (hrefused : refused = true)
      (hleft : left'.toNat = left.toNat + spare) :
      Spares refused spare (.returned ⟨.error error, left⟩) (.returned ⟨.error error, left'⟩)
  | failure {error : CallError} (hmade : refused = false) :
      Spares refused spare (.returned ⟨.error error, 0⟩) (.returned ⟨.error error, 0⟩)
  | abort {m : String} : Spares refused spare (.aborted m) (.aborted m)

/-- A call, beside the same call with `spare` more gas: they end with the same result and leave the
same accounts. -/
structure Dispatched.Spares (spare : Nat) (d d' : Dispatched) : Prop where
  refused : d'.record.handling.isRefusal = d.record.handling.isRefusal
  ending : Ending.Spares d.record.handling.isRefusal spare d.record.ending d'.record.ending
  accounts : d'.world.state.accounts = d.world.state.accounts

/-- A callee, beside the same callee with `spare` more gas. -/
structure Run.Spares (spare : Nat) (run run' : Run Bytes) : Prop where
  settled : Ending.Spares false spare run.settled run'.settled
  accounts : (∀ e, run.ending ≠ .returned (.error e)) →
    run'.world.state.accounts = run.world.state.accounts

theorem Ending.Spares.result_iff {refused : Bool} {spare : Nat} {ending ending' : Ending Outcome}
    (h : ending.Spares refused spare ending') (result : CallResult) :
    (∃ left, ending = .returned ⟨result, left⟩) ↔ ∃ left, ending' = .returned ⟨result, left⟩ := by
  cases h with
  | success | refusal | failure =>
    constructor <;>
    · rintro ⟨left, ⟨⟩⟩
      exact ⟨_, rfl⟩
  | abort =>
    constructor <;>
    · rintro ⟨left, ⟨⟩⟩

theorem Ending.Spares.success_of_ok {refused : Bool} {spare : Nat} {ending ending' : Ending Outcome}
    (h : ending.Spares refused spare ending') {output : Bytes} {left : Gas}
    (hok : ending = .returned ⟨.ok output, left⟩) :
    ∃ left', ending' = .returned ⟨.ok output, left'⟩ ∧ left'.toNat = left.toNat + spare := by
  cases h with
  | success hleft =>
    cases hok
    exact ⟨_, rfl, hleft⟩
  | refusal | failure | abort => cases hok

/-! ### Routines -/

namespace Native

namespace Mint

theorem Rejected.of_le {admin caller : Address} {readOnly : Bool} {gas gas' : Gas} {as : Accounts}
    {input : Bytes} {e : CallError} (hle : gas ≤ gas') (hgas : e ≠ .outOfGas)
    (h : Rejected admin caller readOnly gas as input e) :
    Rejected admin caller readOnly gas' as input e := by
  cases h with
  | unauthorized hcaller => exact .unauthorized hcaller
  | underpaid => exact absurd rfl hgas
  | undecodable hcaller hpaid hdecode =>
    obtain ⟨left', hpaid', -⟩ := Gas.sub?_of_le_of_eq_some hle hpaid
    exact .undecodable hcaller hpaid' hdecode
  | unwritable hcaller hpaid hdecode hreadOnly =>
    obtain ⟨left', hpaid', -⟩ := Gas.sub?_of_le_of_eq_some hle hpaid
    exact .unwritable hcaller hpaid' hdecode hreadOnly
  | refused hcaller hpaid hdecode hwritable hrefused =>
    obtain ⟨left', hpaid', -⟩ := Gas.sub?_of_le_of_eq_some hle hpaid
    exact .refused hcaller hpaid' hdecode hwritable hrefused

end Mint

namespace TokenDuality

theorem Rejected.of_le {c : Config} {caller : Address} {block : Word} {readOnly : Bool}
    {gas gas' : Gas} {as : Accounts} {call : TokenDualityCall} {e : CallError} (hle : gas ≤ gas')
    (hgas : e ≠ .outOfGas) (h : Rejected c caller block readOnly gas as call e) :
    Rejected c caller block readOnly gas' as call e := by
  cases h with
  | underpaid => exact absurd rfl hgas
  | unauthorized hpaid hcaller =>
    obtain ⟨left', hpaid', -⟩ := Gas.sub?_of_le_of_eq_some hle hpaid
    exact .unauthorized hpaid' hcaller
  | unwritable hpaid hcaller hwrites hreadOnly =>
    obtain ⟨left', hpaid', -⟩ := Gas.sub?_of_le_of_eq_some hle hpaid
    exact .unwritable hpaid' hcaller hwrites hreadOnly
  | refused hpaid hcaller hwritable hrefused =>
    obtain ⟨left', hpaid', -⟩ := Gas.sub?_of_le_of_eq_some hle hpaid
    exact .refused hpaid' hcaller hwritable hrefused

end TokenDuality

namespace Shipped

variable {p : Shipped} {routine : Bytes → Program Bytes} {input : Bytes} {h : Host}
  {f f' : Frame} {gas gas' : Gas} {w : World}

theorem Runs.yields_of_le (hp : p.Runs routine) (hle : gas ≤ gas')
    (hcaller : f'.contract.caller = f.contract.caller) {output : Bytes} {left : Gas} {after : World}
    (hok : (routine input).Yields h f gas w output left after) :
    ∃ left', (routine input).Yields h f' gas' w output left' after ∧
      left'.toNat = left.toNat + (gas'.toNat - gas.toNat) := by
  cases hp with
  | mint admin =>
    obtain ⟨hadmin, hpaid, hrest⟩ := Mint.yields_routine.mp hok
    obtain ⟨left', hpaid', hleft⟩ := Gas.sub?_of_le_of_eq_some hle hpaid
    exact ⟨left', Mint.yields_routine.mpr ⟨hcaller.trans hadmin, hpaid', hrest⟩, hleft⟩
  | tokenDuality c =>
    obtain ⟨call, hdecode, as, heffected, hpaid, hafter⟩ := TokenDuality.yields_routine.mp hok
    obtain ⟨left', hpaid', hleft⟩ := Gas.sub?_of_le_of_eq_some hle hpaid
    rw [← hcaller] at heffected
    exact ⟨left',
      TokenDuality.yields_routine.mpr ⟨call, hdecode, as, heffected, hpaid', hafter⟩, hleft⟩

theorem Runs.fails_of_le (hp : p.Runs routine) (hle : gas ≤ gas')
    (hcaller : f'.contract.caller = f.contract.caller) {e : CallError} (hgas : e ≠ .outOfGas)
    (he : (routine input).Fails h f gas w e) : (routine input).Fails h f' gas' w e := by
  cases hp with
  | mint admin =>
    rw [Mint.fails_routine] at he ⊢
    rw [hcaller]
    exact he.of_le hle hgas
  | tokenDuality c =>
    rw [TokenDuality.fails_routine] at he ⊢
    rw [hcaller]
    rcases he with hfault | ⟨call, hdecode, hrejected⟩
    · exact .inl hfault
    · exact .inr ⟨call, hdecode, hrejected.of_le hle hgas⟩

/-- A routine of a shipped precompile runs out of gas, or does the same with more. -/
theorem Runs.spares (hp : p.Runs routine) (hle : gas ≤ gas')
    (hcaller : f'.contract.caller = f.contract.caller) :
    ((routine input).run h f gas w).settled = .returned ⟨.error .outOfGas, 0⟩ ∨
      ((routine input).run h f gas w).Spares (gas'.toNat - gas.toNat)
        ((routine input).run h f' gas' w) := by
  rcases (hp.leaf input).yields_or_fails h f gas w with ⟨output, left, after, hok⟩ | ⟨e, he⟩
  · obtain ⟨left', hok', hleft⟩ := hp.yields_of_le hle hcaller hok
    refine .inr ⟨?_, fun _ => by rw [hok.worldAfter, hok'.worldAfter]⟩
    rw [hok.settled, hok'.settled]
    exact .success hleft
  · have hsettled := he.settled (hp.isRevert he)
    by_cases hgas : e = .outOfGas
    · exact .inl (hgas ▸ hsettled)
    · have he' : (routine input).Fails h f' gas' w e := hp.fails_of_le hle hcaller hgas he
      refine .inr ⟨?_, fun hreturns => absurd he (hreturns e)⟩
      rw [hsettled, he'.settled (hp.isRevert he')]
      exact .failure rfl

theorem exists_of_install {c : Config} {a : Address} {q : Precompile}
    (h : (c.install ∅).get? a = some q) : ∃ p : Shipped, q = p.precompile := by
  rw [Config.get?_install, WordMap.get?_empty, Option.or_none, Config.shipped?] at h
  rcases Option.or_eq_some_iff.mp h with hduality | ⟨-, h⟩
  · obtain ⟨c, -, rfl⟩ := Option.map_eq_some_iff.mp (Option.ite_none_right_eq_some.mp hduality).2
    exact ⟨.tokenDuality c, rfl⟩
  rcases Option.or_eq_some_iff.mp h with hmint | ⟨-, h⟩
  · obtain ⟨admin, -, rfl⟩ := Option.map_eq_some_iff.mp (Option.ite_none_right_eq_some.mp hmint).2
    exact ⟨.mint admin, rfl⟩
  · cases (Option.ite_none_right_eq_some.mp h).2
    exact ⟨.identity, rfl⟩

end Shipped

end Native

/-! ### Callees -/

theorem Request.frame?_offered (r : Request) (gas : Gas) :
    (r.offered gas).frame? = r.frame?.map fun f => { f with contract.gas := gas } := by
  obtain ⟨callType, caller, target, input, gas', value⟩ := r
  cases callType with
  | call | callCode | staticCall => rfl
  | delegateCall => cases caller <;> rfl

namespace Engine

variable {e : Engine} {r : Request} {paid : Accounts} {gas gas' : Gas}

theorem spares_callee (hle : gas ≤ gas')
    (hshipped : ∀ q, e.setting.active.get? r.target = some q → ∃ p : Native.Shipped,
      q = p.precompile) :
    (e.callee paid (r.offered gas)).2.settled = .returned ⟨.error .outOfGas, 0⟩ ∨
      (e.callee paid (r.offered gas)).2.Spares (gas'.toNat - gas.toNat)
        (e.callee paid (r.offered gas')).2 := by
  have hle' : gas.toNat ≤ gas'.toNat := UInt64.le_iff_toNat_le.mp hle
  cases hactive : e.setting.active.get? r.target with
  | none =>
    have hcallee : ∀ g, e.callee paid (r.offered g) =
        (.codeless, ⟨.returned (.ok []), g, (e.entering paid).world, .done⟩) :=
      fun g => callee_of_none hactive
    rw [hcallee, hcallee]
    exact .inr ⟨.success (Nat.add_sub_of_le hle').symm, fun _ => rfl⟩
  | some q =>
    obtain ⟨p, rfl⟩ := hshipped q hactive
    cases hp : p.precompile with
    | stateless price run =>
      rw [hp] at hactive
      -- a failure would leave other gas than a success, but this one has none
      have hidentity : ∀ input, run input = .ok input := by
        cases p with
        | identity =>
          cases hp
          exact fun _ => rfl
        | mint | tokenDuality => cases hp
      rw [callee_of_stateless (r := r.offered gas) hactive paid,
        callee_of_stateless (r := r.offered gas') hactive paid]
      cases hpaid : Gas.sub? (r.offered gas).gas (price (r.offered gas).input) with
      | none => exact .inl rfl
      | some left =>
        obtain ⟨left', hspared, hleft⟩ := Gas.sub?_of_le_of_eq_some hle hpaid
        have hpaid' : Gas.sub? (r.offered gas').gas (price (r.offered gas').input) = some left' :=
          hspared
        rw [hpaid', hidentity, hidentity]
        exact .inr ⟨.success hleft, fun _ => rfl⟩
    | stateful routine =>
      rw [hp] at hactive
      have hruns := Native.Shipped.runs_of_stateful hp
      -- the frames differ in their gas alone, which no routine reads off its frame
      cases hframe : r.frame? with
      | none =>
        have hnone : ∀ g, (r.offered g).frame? = none := fun g => by
          rw [Request.frame?_offered, hframe]
          rfl
        rw [callee_of_frameless (r := r.offered gas) hactive (hnone gas) paid,
          callee_of_frameless (r := r.offered gas') hactive (hnone gas') paid]
        exact .inr ⟨.failure rfl, fun _ => rfl⟩
      | some f =>
        have hsome : ∀ g, (r.offered g).frame? = some { f with contract.gas := g } := fun g => by
          rw [Request.frame?_offered, hframe]
          rfl
        rw [callee_of_stateful (r := r.offered gas) hactive (hsome gas) paid,
          callee_of_stateful (r := r.offered gas') hactive (hsome gas') paid]
        split
        · exact .inr ⟨.abort, fun _ => rfl⟩
        · exact hruns.spares hle rfl

/-! ### Calls -/

theorem spares_of_funded (hle : gas ≤ gas') (hdepth : e.context.depth ≤ e.setting.maxDepth)
    (hshipped : ∀ q, e.setting.active.get? r.target = some q → ∃ p : Native.Shipped,
      q = p.precompile) (hfunded : r.Funded e.world.state.accounts paid) :
    (e.dispatch (r.offered gas)).record.ending = .returned ⟨.error .outOfGas, 0⟩ ∨
      (e.dispatch (r.offered gas)).Spares (gas'.toNat - gas.toNat)
        (e.dispatch (r.offered gas')) := by
  have hfunded' : ∀ g, (r.offered g).Funded e.world.state.accounts paid := fun g =>
    ⟨hfunded.covered, hfunded.transfer⟩
  have hending : ∀ g, (e.dispatch (r.offered g)).record.ending =
      (e.callee paid (r.offered g)).2.settled := fun g => by
    rw [dispatch_of_funded hdepth (hfunded' g)]
    exact Dispatched.ending_settle ..
  have hmade : ∀ g, (e.dispatch (r.offered g)).record.handling.isRefusal = false := fun g => by
    rw [Bool.eq_false_iff, ne_eq, isRefusal_dispatch]
    exact not_or.mpr ⟨Nat.not_lt.mpr hdepth, (hfunded' g).covered⟩
  have hleaf : ∀ g routine, e.setting.active.get? (r.offered g).target = some (.stateful routine) →
      ∀ input, (routine input).Leaf fun o => o.handlesSnapshots = false := by
    intro g routine hactive
    obtain ⟨p, hp⟩ := hshipped _ hactive
    exact (Native.Shipped.runs_of_stateful hp.symm).leaf
  have hcallee : _ ∨ (e.callee paid (r.offered gas)).2.Spares _ _ := spares_callee hle hshipped
  rcases hcallee with hgas | hspares
  · exact .inl ((hending gas).trans hgas)
  · have hsettled := hspares.settled
    rw [← hending, ← hending] at hsettled
    refine .inr ⟨(hmade gas').trans (hmade gas).symm, by rwa [hmade], ?_⟩
    by_cases hfailed : ∃ error, (e.callee paid (r.offered gas)).2.ending = .returned (.error error)
    · -- both fail, and both undo what was done
      obtain ⟨error, left, herror⟩ := (Run.failed_iff _).mpr hfailed
      rw [← hending] at herror
      obtain ⟨left', herror'⟩ := (hsettled.result_iff _).mp ⟨left, herror⟩
      rw [accounts_dispatch_of_error (hleaf gas) herror,
        accounts_dispatch_of_error (hleaf gas') herror']
    · have hfailed' : ¬ ∃ error,
          (e.callee paid (r.offered gas')).2.ending = .returned (.error error) := by
        rw [← Run.failed_iff, ← hending]
        rintro ⟨error, hleft⟩
        obtain ⟨left, herror⟩ := (hsettled.result_iff _).mpr hleft
        exact hfailed ((Run.failed_iff _).mp ⟨error, left, (hending gas).symm.trans herror⟩)
      rw [accounts_dispatch_of_funded hdepth (hfunded' gas) (not_exists.mp hfailed),
        accounts_dispatch_of_funded hdepth (hfunded' gas') (not_exists.mp hfailed'),
        hspares.accounts (not_exists.mp hfailed)]

/-- Where only shipped precompiles are active, a call runs out of gas or does the same with
more. -/
theorem spares_dispatch {c : Native.Config} (hactive : c.Governs ∅ e.setting.active)
    (hle : gas ≤ gas') :
    (∃ left, (e.dispatch (r.offered gas)).record.ending = .returned ⟨.error .outOfGas, left⟩) ∨
      (e.dispatch (r.offered gas)).Spares (gas'.toNat - gas.toNat)
        (e.dispatch (r.offered gas')) := by
  have hspare : gas'.toNat = gas.toNat + (gas'.toNat - gas.toNat) :=
    (Nat.add_sub_of_le (UInt64.le_iff_toNat_le.mp hle)).symm
  by_cases hdepth : e.context.depth ≤ e.setting.maxDepth
  · by_cases hcovered : e.world.state.accounts.balance r.caller.address < r.carriedValue
    · have hrefused : ∀ g, e.dispatch (r.offered g) = _ := fun g =>
        dispatch_of_unfunded (r := r.offered g) hdepth hcovered
      rw [hrefused, hrefused]
      exact .inr ⟨rfl, .refusal rfl hspare, rfl⟩
    · cases htransfer : e.world.state.accounts.transfer? r.caller.address r.target r.movedValue with
      | none =>
        have hoverfull := fun g => dispatch_of_overfull (r := r.offered g) hdepth hcovered htransfer
        obtain ⟨hhandling, hending, hworld⟩ := hoverfull gas
        obtain ⟨hhandling', hending', hworld'⟩ := hoverfull gas'
        refine .inr ⟨by rw [hhandling, hhandling'], ?_, by rw [hworld, hworld']⟩
        rw [hhandling, hending, hending']
        exact .failure rfl
      | some paid =>
        have hshipped : ∀ q, e.setting.active.get? r.target = some q → ∃ p : Native.Shipped,
            q = p.precompile := fun q hq => Native.Shipped.exists_of_install (hactive _ q hq)
        rcases spares_of_funded hle hdepth hshipped ⟨hcovered, htransfer⟩ with hgas | hspares
        · exact .inl ⟨0, hgas⟩
        · exact .inr hspares
  · have hrefused : ∀ g, e.dispatch (r.offered g) = _ := fun g =>
      dispatch_levels_of_lt e.setting e.context (r.offered g) e.world (Nat.not_le.mp hdepth)
    rw [hrefused, hrefused]
    exact .inr ⟨rfl, .refusal rfl hspare, rfl⟩

/-- Offered more gas, a call of an engine with the shipped precompiles does the same unless it has
run out of gas: it has the same result and leaves the same accounts. A success gives all of the
additional gas back, as does a refusal before the call was made, and any other failure takes all gas
in either case. So more gas turns no success into a failure, and changes none of its effects. -/
theorem gas_indifferent (c : Native.Config) (e : Engine)
    (hactive : c.Governs ∅ e.setting.active) (r : Request) (gas gas' : Gas) (hle : gas ≤ gas') :
    ((∃ left, (e.dispatch (r.offered gas)).record.ending = .returned ⟨.error .outOfGas, left⟩) ∨
      (e.dispatch (r.offered gas)).Spares (gas'.toNat - gas.toNat)
        (e.dispatch (r.offered gas'))) ∧
    ∀ output left, (e.dispatch (r.offered gas)).record.ending = .returned ⟨.ok output, left⟩ →
      (∃ left', (e.dispatch (r.offered gas')).record.ending = .returned ⟨.ok output, left'⟩ ∧
        left'.toNat = left.toNat + (gas'.toNat - gas.toNat)) ∧
      (e.dispatch (r.offered gas')).world.state.accounts =
        (e.dispatch (r.offered gas)).world.state.accounts := by
  have hspares := e.spares_dispatch (r := r) hactive hle
  refine ⟨hspares, fun output left hok => ?_⟩
  obtain ⟨left', hgas⟩ | hspares := hspares
  · cases hok.symm.trans hgas
  · exact ⟨hspares.ending.success_of_ok hok, hspares.accounts⟩

end Engine

namespace Counter

def config : Native.Config :=
  { mintAdmin := some 0xa0, tokenDuality := some { admin := 0xa0, perBlockCap := some 100 } }

def engine : Engine :=
  Engine.create { accounts := (∅ : Accounts).setBalance 0xa0 50 } (config.install ∅)

/-- The admin pays the precompile 5 and passes the payment on. -/
def request (amount : Word) : Request :=
  { callType := .call, caller := .account 0xa0, target := Native.TokenDuality.address
    input := (TokenDualityCall.transfer Native.TokenDuality.address 0xb1 amount).encode
    gas := 0, value := 5 }

/-- A transfer costs 49000, no matter how much is offered. One that fails costs all that is. -/
theorem engine_gas_indifferent :
    (engine.dispatch ((request 5).offered 48999)).record.ending =
        .returned ⟨.error .outOfGas, 0⟩ ∧
      (engine.dispatch ((request 5).offered 100000)).record.ending = .returned ⟨.ok [], 51000⟩ ∧
      (engine.dispatch ((request 5).offered 100000)).world.state.accounts.balance 0xb1 = 5 ∧
      (engine.dispatch ((request 6).offered 49000)).Spares 51000
        (engine.dispatch ((request 6).offered 100000)) := by
  have hindifferent := fun r =>
    Engine.gas_indifferent config engine (config.governs_activate ∅ _ _) r 49000 100000 (by decide)
  have hexact : (engine.dispatch ((request 5).offered 49000)).record.ending =
      .returned ⟨.ok [], 0⟩ := rfl
  have hrefused : (engine.dispatch ((request 6).offered 49000)).record.ending =
      .returned ⟨.error Native.Refusal.insufficientBalance.error, 0⟩ := rfl
  obtain ⟨⟨left, hending, hleft⟩, haccounts⟩ := (hindifferent (request 5)).2 _ _ hexact
  obtain rfl : left = 51000 := UInt64.toNat_inj.mp hleft
  refine ⟨rfl, hending, ?_, ?_⟩
  · rw [haccounts]
    decide +kernel
  · refine (hindifferent (request 6)).1.resolve_left ?_
    rw [hrefused]
    rintro ⟨left, ⟨⟩⟩

end Counter

end PrecompileHost
