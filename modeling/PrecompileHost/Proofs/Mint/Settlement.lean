import PrecompileHost.Proofs.Checks
import PrecompileHost.Proofs.Mint.Refusals

/-!
What every call of the mint precompile comes to. Its checks, in their order, decide whether it
succeeds; what it then does is a change of one balance, and so one call can be undone by another.
-/

namespace PrecompileHost

/-- Only one account differs, which is there and has another balance at most. -/
structure Accounts.Rebalanced (as : Accounts) (a : Address) (bs : Accounts) : Prop where
  account : bs.get? a = some { as.account a with balance := bs.balance a }
  others : ∀ b, b ≠ a → bs.get? b = as.get? b

theorem Accounts.rebalanced_setBalance_create (as : Accounts) (a : Address) (v : Word) :
    as.Rebalanced a ((as.create a).setBalance a v) := by
  have haccount : ((as.create a).setBalance a v).get? a =
      some { as.account a with balance := v } := by
    rw [get?_setBalance, if_pos rfl, account_create]
  refine ⟨?_, fun b hb => ?_⟩
  · rw [balance_of_get? haccount]
    exact haccount
  · rw [get?_setBalance, if_neg hb, get?_create, if_neg hb]

namespace Native.Mint

/-- What the balance of the named account has to allow for. -/
def balanceCheck (as : Accounts) : NativeTokenCall → Check
  | .mint recipient amount =>
    { condition := (as.balance recipient).toNat + amount.toNat < Word.size
      error := Refusal.balanceOverflow.error }
  | .burn holder amount =>
    { condition := amount ≤ as.balance holder
      error := Refusal.insufficientBalance.error }

instance (as : Accounts) (call : NativeTokenCall) : Decidable (balanceCheck as call).condition :=
  match call with
  | .mint recipient amount =>
    inferInstanceAs (Decidable ((as.balance recipient).toNat + amount.toNat < Word.size))
  | .burn holder amount => inferInstanceAs (Decidable (amount ≤ as.balance holder))

/-- The checks of a call, in the order in which they are made. -/
def checks (admin caller : Address) (readOnly : Bool) (gas : Gas) (as : Accounts)
    (input : Bytes) : List Check :=
  ⟨caller = admin, Refusal.unauthorized.error⟩ :: ⟨gasCost ≤ gas, .outOfGas⟩ ::
    match NativeTokenCall.decode input with
    | .error fault => [⟨False, .other fault.message⟩]
    | .ok call => [⟨readOnly = false, .writeProtection⟩, balanceCheck as call]

/-- What a call does: the named account, which need not have been there, has gained or lost the
amount. -/
def Supplies (as : Accounts) : NativeTokenCall → Accounts → Prop
  | .mint recipient amount, bs =>
    as.Rebalanced recipient bs ∧
      (bs.balance recipient).toNat = (as.balance recipient).toNat + amount.toNat
  | .burn holder amount, bs =>
    as.Rebalanced holder bs ∧
      (bs.balance holder).toNat + amount.toNat = (as.balance holder).toNat

variable {as bs : Accounts} {call : NativeTokenCall} {admin caller : Address} {readOnly : Bool}
  {gas : Gas} {input : Bytes}

theorem supplies_of_effected (h : Effected as call bs) : Supplies as call bs := by
  cases h with
  | @minted recipient amount _ hcredit =>
    obtain ⟨hfits, rfl⟩ := (Accounts.credit?_eq_some_iff _ recipient).mp hcredit
    rw [Accounts.balance_create] at hfits ⊢
    refine ⟨as.rebalanced_setBalance_create recipient _, ?_⟩
    rw [Accounts.balance_setBalance, if_pos rfl]
    exact Word.toNat_of_add?_eq_some (if_pos hfits)
  | @burned holder amount _ hdebit =>
    obtain ⟨hle, rfl⟩ := (Accounts.debit?_eq_some_iff _ holder).mp hdebit
    rw [Accounts.balance_create] at hle ⊢
    refine ⟨as.rebalanced_setBalance_create holder _, ?_⟩
    rw [Accounts.balance_setBalance, if_pos rfl]
    exact Word.toNat_of_sub?_eq_some (if_pos (BitVec.le_def.mp hle))

theorem exists_effected (h : (balanceCheck as call).condition) : ∃ bs, Effected as call bs := by
  cases call with
  | mint recipient amount =>
    refine ⟨_, .minted ((Accounts.credit?_eq_some_iff _ recipient).mpr ⟨?_, rfl⟩)⟩
    rw [Accounts.balance_create]
    exact h
  | burn holder amount =>
    refine ⟨_, .burned ((Accounts.debit?_eq_some_iff _ holder).mpr ⟨?_, rfl⟩)⟩
    rw [Accounts.balance_create]
    exact h

theorem exists_refused (h : ¬ (balanceCheck as call).condition) :
    ∃ r, Refused as call r ∧ r.error = (balanceCheck as call).error := by
  cases call with
  | mint recipient amount =>
    refine ⟨_, .overflow (Accounts.credit?_eq_none_iff _ recipient |>.mpr ?_), rfl⟩
    rw [Accounts.balance_create]
    exact Nat.not_lt.mp h
  | burn holder amount =>
    refine ⟨_, .insufficient (Accounts.debit?_eq_none_iff _ holder |>.mpr ?_), rfl⟩
    rw [Accounts.balance_create]
    exact BitVec.not_le.mp h

theorem passed_checks_iff :
    Check.Passed (checks admin caller readOnly gas as input) ↔
      caller = admin ∧ gasCost ≤ gas ∧ ∃ call, NativeTokenCall.decode input = .ok call ∧
        readOnly = false ∧ (balanceCheck as call).condition := by
  rw [checks, Check.passed_cons, Check.passed_cons]
  cases NativeTokenCall.decode input with
  | error fault => simp
  | ok call => simp

theorem rejected_of_stops {e : CallError}
    (h : Check.Stops (checks admin caller readOnly gas as input) e) :
    Rejected admin caller readOnly gas as input e := by
  rw [checks, Check.stops_cons, Check.stops_cons] at h
  -- the first check that does not hold gives the error, those before it hold
  obtain ⟨hcaller, rfl⟩ | ⟨hcaller, ⟨hgas, rfl⟩ | ⟨hgas, hrest⟩⟩ := h
  · exact .unauthorized hcaller
  · exact .underpaid hcaller (Gas.sub?_eq_none_iff.mpr (UInt64.not_le.mp hgas))
  · have hpaid := Gas.sub?_of_le hgas
    cases hdecode : NativeTokenCall.decode input with
    | error fault =>
      rw [hdecode] at hrest
      obtain ⟨-, rfl⟩ | ⟨hnever, -⟩ := Check.stops_cons.mp hrest
      · exact .undecodable hcaller hpaid hdecode
      · exact absurd hnever id
    | ok call =>
      rw [hdecode] at hrest
      simp only [Check.stops_cons, Check.stops_nil, and_false, or_false] at hrest
      obtain ⟨hro, rfl⟩ | ⟨hwritable, hbalance, rfl⟩ := hrest
      · exact .unwritable hcaller hpaid hdecode (Bool.not_eq_false _ ▸ hro)
      · obtain ⟨r, hrefused, herror⟩ := exists_refused hbalance
        rw [← herror]
        exact .refused hcaller hpaid hdecode hwritable hrefused

/-! ### Calls -/

/-- A mint followed by a burn of the same amount has done no more than to create the account. -/
theorem eq_create_of_supplies {cs : Accounts} {a : Address} {amount : Word}
    (hmint : Supplies as (.mint a amount) bs) (hburn : Supplies bs (.burn a amount) cs) :
    cs = as.create a := by
  obtain ⟨hminted, hgained⟩ := hmint
  obtain ⟨hburned, hlost⟩ := hburn
  -- what was gained and what was lost are one amount
  have hbalance : cs.balance a = as.balance a :=
    BitVec.eq_of_toNat_eq (Nat.add_right_cancel (hlost.trans hgained))
  refine WordMap.ext_get? fun b => ?_
  rw [Accounts.get?_create]
  by_cases hb : b = a
  · rw [if_pos hb, hb, hburned.account, hbalance, Accounts.account, hminted.account]
    rfl
  · rw [if_neg hb, hburned.others b hb, hminted.others b hb]

/-- A call that shows no value, of the admin's, in a frame that may write and with enough gas. -/
structure Asks (s : Setting) (admin : Address) (r : Request) (call : NativeTokenCall) :
    Prop where
  active : s.active.get? r.target = some (precompile admin)
  frame : ∃ f, r.frame? = some f ∧ f.contract.caller = admin
  valueless : r.carriedValue = 0
  writable : r.callType.readOnly = false
  gas : gasCost ≤ r.gas
  decodes : NativeTokenCall.decode r.input = .ok call

variable {e : Engine} {r : Request} {f : Frame} {paid : Accounts}

theorem decidedBy_checks (hdepth : e.context.depth ≤ e.setting.maxDepth)
    (hactive : e.setting.active.get? r.target = some (precompile admin))
    (hframe : r.frame? = some f) (hfunded : r.Funded e.world.state.accounts paid)
    (hcount : e.context.depth + 1 < CallContext.depthLimit) :
    e.DecidedBy r
      (checks admin f.contract.caller (e.context.enter r.callType).readOnly r.gas paid r.input)
      gasCost
      fun bs => ∃ call, NativeTokenCall.decode r.input = .ok call ∧ Supplies paid call bs := by
  refine Engine.decidedBy_of_leaf hdepth hactive hframe hfunded hcount (leaf_routine admin)
    (fun hpassed => ?_) fun error hstops => ?_
  · obtain ⟨hcaller, hgas, call, hdecode, hwritable, hbalance⟩ := passed_checks_iff.mp hpassed
    obtain ⟨bs, heffected⟩ := exists_effected hbalance
    refine ⟨bs, ⟨call, hdecode, supplies_of_effected heffected⟩, yields_routine.mpr ?_⟩
    exact ⟨hcaller, Gas.sub?_of_le hgas, hwritable, rfl, call, hdecode, bs, heffected, rfl⟩
  · have hrejected := rejected_of_stops hstops
    exact ⟨hrejected.isRevert, fails_routine.mpr hrejected⟩

theorem supplies_of_succeeded (hdepth : e.context.depth ≤ e.setting.maxDepth)
    (hactive : e.setting.active.get? r.target = some (precompile admin))
    (hframe : r.frame? = some f) (hvalueless : r.carriedValue = 0)
    (hdecode : NativeTokenCall.decode r.input = .ok call) {output : Bytes} {left : Gas}
    (hok : (e.dispatch r).record.ending = .returned ⟨.ok output, left⟩) :
    e.context.depth + 1 < CallContext.depthLimit ∧ e.context.readOnly = false ∧
      Supplies e.world.state.accounts call (e.dispatch r).world.state.accounts := by
  have hfunded := (Request.unmoved_of_valueless hvalueless e.world.state.accounts).funded
  have hcount : e.context.depth + 1 < CallContext.depthLimit := by
    refine Nat.not_le.mp fun hlimit => ?_
    have haborted := Engine.ending_of_uncountable hdepth hactive hframe hfunded hlimit
    cases hok.symm.trans haborted
  have hdecided := decidedBy_checks hdepth hactive hframe hfunded hcount
  obtain ⟨-, -, -, -, hwritable, -⟩ := passed_checks_iff.mp (hdecided.succeeds.mp ⟨_, _, hok⟩)
  obtain ⟨-, -, call', hdecode', hsupplies⟩ := hdecided.success _ _ hok
  cases hdecode.symm.trans hdecode'
  exact ⟨hcount, (Bool.or_eq_false_iff.mp hwritable).1, hsupplies⟩

theorem supplies_of_asks (hdepth : e.context.depth ≤ e.setting.maxDepth)
    (hcount : e.context.depth + 1 < CallContext.depthLimit) (hwritable : e.context.readOnly = false)
    (hasks : Asks e.setting admin r call)
    (hbalance : (balanceCheck e.world.state.accounts call).condition) :
    (e.dispatch r).record.ending = .returned ⟨.ok [], r.gas - gasCost⟩ ∧
      Supplies e.world.state.accounts call (e.dispatch r).world.state.accounts := by
  obtain ⟨f, hframe, hcaller⟩ := hasks.frame
  have hfunded := (Request.unmoved_of_valueless hasks.valueless e.world.state.accounts).funded
  have hdecided := decidedBy_checks hdepth hasks.active hframe hfunded hcount
  have hwritable' : (e.context.enter r.callType).readOnly = false :=
    Bool.or_eq_false_iff.mpr ⟨hwritable, hasks.writable⟩
  obtain ⟨output, left, hok⟩ := hdecided.succeeds.mpr (passed_checks_iff.mpr
    ⟨hcaller, hasks.gas, call, hasks.decodes, hwritable', hbalance⟩)
  obtain ⟨rfl, rfl, call', hdecode', hsupplies⟩ := hdecided.success _ _ hok
  cases hasks.decodes.symm.trans hdecode'
  exact ⟨hok, hsupplies⟩

/-- Wherever the precompile is active, and whoever its admin is: what becomes of a call is decided
by the checks of its caller, its gas, its input, its protection and the balance, made in this order
after its value has been moved. What a mint without value has done, a burn without value can
undo. -/
theorem calls_decided (e : Engine) (hdepth : e.context.depth ≤ e.setting.maxDepth)
    (admin : Address) (r : Request)
    (hactive : e.setting.active.get? r.target = some (precompile admin)) (f : Frame)
    (hframe : r.frame? = some f) (paid : Accounts)
    (hfunded : r.Funded e.world.state.accounts paid) :
    (CallContext.depthLimit ≤ e.context.depth + 1 →
      (e.dispatch r).record.ending = .aborted "attempt to add with overflow") ∧
    (e.context.depth + 1 < CallContext.depthLimit →
      e.DecidedBy r
        (checks admin f.contract.caller (e.context.enter r.callType).readOnly r.gas paid r.input)
        gasCost
        fun bs => ∃ call, NativeTokenCall.decode r.input = .ok call ∧ Supplies paid call bs) ∧
    ∀ recipient amount, NativeTokenCall.decode r.input = .ok (.mint recipient amount) →
      r.carriedValue = 0 →
      (∃ output left, (e.dispatch r).record.ending = .returned ⟨.ok output, left⟩) →
        ∀ undo, Asks e.setting admin undo (.burn recipient amount) →
          ((e.after (e.dispatch r)).dispatch undo).record.ending =
              .returned ⟨.ok [], undo.gas - gasCost⟩ ∧
            ((e.after (e.dispatch r)).dispatch undo).world.state.accounts =
              e.world.state.accounts.create recipient ∧
            (e.world.state.accounts.contains recipient = true →
              ((e.after (e.dispatch r)).dispatch undo).world.state.accounts =
                e.world.state.accounts) := by
  refine ⟨Engine.ending_of_uncountable hdepth hactive hframe hfunded,
    decidedBy_checks hdepth hactive hframe hfunded, ?_⟩
  rintro recipient amount hdecode hvalueless ⟨output, left, hok⟩ undo hundo
  obtain ⟨hcount, hwritable, hminted⟩ :=
    supplies_of_succeeded hdepth hactive hframe hvalueless hdecode hok
  -- what was minted is there to be burned
  have hbalance : amount ≤ (e.dispatch r).world.state.accounts.balance recipient := by
    rw [BitVec.le_def, hminted.2]
    exact Nat.le_add_left _ _
  obtain ⟨hok', hburned⟩ :=
    supplies_of_asks (e := e.after (e.dispatch r)) hdepth hcount hwritable hundo hbalance
  have hrestored := eq_create_of_supplies hminted hburned
  exact ⟨hok', hrestored, fun hcontains => hrestored.trans (Accounts.create_of_contains hcontains)⟩

namespace Tap

def engine : Engine :=
  Engine.create { accounts := (∅ : Accounts).setBalance 0xa0 7 }
    (WordMap.ofList [(address, precompile 0xa0)])

/-- A call that pays the precompile as well. -/
def request (caller : Address) (call : NativeTokenCall) (value : Word) : Request :=
  { callType := .call, caller := .account caller, target := address, input := call.encode,
    gas := 10000, value }

def frame (caller : Address) (value : Word) : Frame :=
  { contract := { caller, address, value, gas := 10000 }
    callType := .call
    rawCaller := caller
    rawSelf := address }

/-- The admin can mint to the precompile what he has paid it, but not more than fits there; what he
mints without paying he can burn; and nobody else can do either. -/
theorem engine_calls_decided :
    (engine.dispatch (request 0xa0 (.mint address 2) 7)).record.ending =
        .returned ⟨.ok [], 1000⟩ ∧
      (engine.dispatch (request 0xa0 (.mint address Word.largest) 7)).record.ending =
        .returned ⟨.error Refusal.balanceOverflow.error, 0⟩ ∧
      (engine.dispatch (request 0xa1 (.burn 0xa0 2) 0)).record.ending =
        .returned ⟨.error Refusal.unauthorized.error, 0⟩ ∧
      ((engine.after (engine.dispatch (request 0xa0 (.mint 0xb1 5) 0))).dispatch
          (request 0xa0 (.burn 0xb1 5) 0)).world.state.accounts =
        engine.world.state.accounts.create 0xb1 := by
  have hcall : ∀ caller call value paid, _ → _ := fun caller call value paid hfunded =>
    calls_decided engine (by decide) 0xa0 (request caller call value) rfl (frame caller value) rfl
      paid hfunded
  refine ⟨?_, ?_, ?_, ?_⟩
  · obtain ⟨-, hdecided, -⟩ := hcall 0xa0 (.mint address 2) 7 _ ⟨by decide +kernel, rfl⟩
    obtain ⟨output, left, hok⟩ := (hdecided (by decide)).succeeds.mpr
      (passed_checks_iff.mpr ⟨rfl, by decide, _, rfl, rfl, by decide +kernel⟩)
    obtain ⟨rfl, rfl, -⟩ := (hdecided (by decide)).success _ _ hok
    exact hok
  · obtain ⟨-, hdecided, -⟩ :=
      hcall 0xa0 (.mint address Word.largest) 7 _ ⟨by decide +kernel, rfl⟩
    obtain ⟨left, herror⟩ := ((hdecided (by decide)).fails Refusal.balanceOverflow.error).mpr
      (.later rfl (.later (by decide) (.later rfl (.here (by decide +kernel)))))
    obtain ⟨rfl, -⟩ := (hdecided (by decide)).failure _ _ herror
    exact herror
  · obtain ⟨-, hdecided, -⟩ := hcall 0xa1 (.burn 0xa0 2) 0 _ ⟨by decide +kernel, rfl⟩
    obtain ⟨left, herror⟩ := ((hdecided (by decide)).fails Refusal.unauthorized.error).mpr
      (.here (by decide))
    obtain ⟨rfl, -⟩ := (hdecided (by decide)).failure _ _ herror
    exact herror
  · obtain ⟨-, hdecided, hundone⟩ := hcall 0xa0 (.mint 0xb1 5) 0 _ ⟨by decide +kernel, rfl⟩
    refine (hundone 0xb1 5 rfl rfl ?_ (request 0xa0 (.burn 0xb1 5) 0) ?_).2.1
    · exact (hdecided (by decide)).succeeds.mpr
        (passed_checks_iff.mpr ⟨rfl, by decide, _, rfl, rfl, by decide +kernel⟩)
    · exact ⟨rfl, ⟨frame 0xa0 0, rfl, rfl⟩, rfl, rfl, by decide, rfl⟩

end Tap

end Native.Mint

end PrecompileHost
