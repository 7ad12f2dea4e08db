import PrecompileHost.Proofs.Lineage
import PrecompileHost.Proofs.Success

/-!
The value of a call. Whether a call is turned away for its value is decided before its callee is
reached: the caller has to have the value, and a plain call's value has to find room at the target.
A callee that is reached finds the value moved, exactly and at once, and is then run as it would be
on its own, with what its price leaves of the gas.
-/

namespace PrecompileHost

/-! ### Transfers -/

namespace Accounts

variable {as bs : Accounts} {a source target : Address} {value : Word}

/-- `value` has gone from one account to another, and nothing else is different. -/
structure Sent (as : Accounts) (source target : Address) (value : Word) (bs : Accounts) :
    Prop where
  sourceAccount : bs.get? source = some { as.account source with balance := bs.balance source }
  targetAccount : bs.get? target = some { as.account target with balance := bs.balance target }
  others : ∀ a, a ≠ source → a ≠ target → bs.get? a = as.get? a
  debited : (bs.balance source).toNat + value.toNat = (as.balance source).toNat
  credited : (bs.balance target).toNat = (as.balance target).toNat + value.toNat

theorem sent_of_debit?_credit? {debited : Accounts} (hne : source ≠ target)
    (hdebit : as.debit? source value = some debited)
    (hcredit : debited.credit? target value = some bs) : as.Sent source target value bs := by
  obtain ⟨hle, rfl⟩ := (as.debit?_eq_some_iff source).mp hdebit
  obtain ⟨hfits, rfl⟩ := (credit?_eq_some_iff _ target).mp hcredit
  -- the target is another account, so the debit has left it as it was
  have hsame : (as.setBalance source (as.balance source - value)).account target =
      as.account target := by
    refine account_of_get?_eq ?_
    rw [get?_setBalance, if_neg hne.symm]
  have hbefore : (as.setBalance source (as.balance source - value)).balance target =
      as.balance target := congrArg Account.balance hsame
  rw [hbefore] at hfits ⊢
  have hsource : ((as.setBalance source (as.balance source - value)).setBalance target
      (as.balance target + value)).get? source =
        some { as.account source with balance := as.balance source - value } := by
    rw [get?_setBalance, if_neg hne, get?_setBalance, if_pos rfl]
  have htarget : ((as.setBalance source (as.balance source - value)).setBalance target
      (as.balance target + value)).get? target =
        some { as.account target with balance := as.balance target + value } := by
    rw [get?_setBalance, if_pos rfl, hsame]
  have hdebited := balance_of_get? hsource
  have hcredited := balance_of_get? htarget
  refine ⟨?_, ?_, fun a ha ha' => ?_, ?_, ?_⟩
  · rw [hdebited]
    exact hsource
  · rw [hcredited]
    exact htarget
  · rw [get?_setBalance, if_neg ha', get?_setBalance, if_neg ha]
  · rw [hdebited]
    exact Word.toNat_of_sub?_eq_some (if_pos (BitVec.le_def.mp hle))
  · rw [hcredited]
    exact Word.toNat_of_add?_eq_some (if_pos hfits)

theorem sent_of_transfer? (hvalue : value ≠ 0) (hne : source ≠ target)
    (h : as.transfer? source target value = some bs) : as.Sent source target value bs := by
  rw [transfer?, if_neg hvalue] at h
  obtain ⟨debited, hdebit, hcredit⟩ := Option.bind_eq_some_iff.mp h
  exact sent_of_debit?_credit? hne hdebit hcredit

namespace Sent

/-- It is all the same whether the two accounts were there before. -/
theorem of_create (h : ((as.create source).create target).Sent source target value bs) :
    as.Sent source target value bs := by
  obtain ⟨hsource, htarget, hothers, hdebited, hcredited⟩ := h
  simp only [account_create, balance_create] at hsource htarget hdebited hcredited
  refine ⟨hsource, htarget, fun a ha ha' => ?_, hdebited, hcredited⟩
  rw [hothers a ha ha', get?_create, if_neg ha', get?_create, if_neg ha]

theorem account (h : as.Sent source target value bs) (a : Address) :
    bs.account a = { as.account a with balance := bs.balance a } := by
  by_cases hsource : a = source
  · rw [hsource]
    exact account_of_get? h.sourceAccount
  · by_cases htarget : a = target
    · rw [htarget]
      exact account_of_get? h.targetAccount
    · rw [balance, account_of_get?_eq (h.others a hsource htarget)]

theorem nonce (h : as.Sent source target value bs) (a : Address) : bs.nonce a = as.nonce a := by
  rw [Accounts.nonce, h.account]
  rfl

theorem storage (h : as.Sent source target value bs) (a : Address) (key : Word) :
    bs.storage a key = as.storage a key := by
  rw [Accounts.storage, h.account]
  rfl

theorem contains (h : as.Sent source target value bs) (a : Address) :
    bs.contains a = true ↔ as.contains a = true ∨ a = source ∨ a = target := by
  rw [WordMap.contains]
  by_cases hsource : a = source
  · rw [hsource, h.sourceAccount]
    exact iff_of_true rfl (.inr (.inl rfl))
  · by_cases htarget : a = target
    · rw [htarget, h.targetAccount]
      exact iff_of_true rfl (.inr (.inr rfl))
    · rw [h.others a hsource htarget]
      exact (or_iff_left (not_or.mpr ⟨hsource, htarget⟩)).symm

end Sent

/-- A transfer that the source can pay fails if the target has no room for it. To oneself there is
always room. -/
theorem transfer?_eq_none_iff_of_le (hle : value ≤ as.balance source) :
    as.transfer? source target value = none ↔
      source ≠ target ∧ Word.size ≤ (as.balance target).toNat + value.toNat := by
  by_cases hvalue : value = 0
  · have hfits := (as.balance target).isLt
    rw [transfer?, if_pos hvalue, hvalue]
    exact iff_of_false (Option.some_ne_none _) fun h => Nat.not_le.mpr hfits h.2
  · rw [transfer?, if_neg hvalue,
      (as.debit?_eq_some_iff source).mpr ⟨hle, rfl⟩, Option.bind_some, credit?_eq_none_iff,
      balance_setBalance]
    by_cases hne : target = source
    · have hsub := Word.toNat_of_sub?_eq_some (if_pos (BitVec.le_def.mp hle))
      have hfits := (as.balance source).isLt
      rw [if_pos hne, hsub]
      exact iff_of_false (Nat.not_le.mpr hfits) fun h => h.1 hne.symm
    · rw [if_neg hne]
      exact (and_iff_right (Ne.symm hne)).symm

end Accounts

/-! ### Callees -/

namespace Request

/-- The caller has the value of the call, and what the call moves has been moved. -/
structure Funded (r : Request) (as paid : Accounts) : Prop where
  covered : ¬ as.balance r.caller.address < r.carriedValue
  transfer : as.transfer? r.caller.address r.target r.movedValue = some paid

theorem carriedValue_of_carries {r : Request} (h : r.callType.carriesValue = true) :
    r.carriedValue = r.value :=
  if_pos h

theorem made_of_carries {r : Request} (h : r.callType.carriesValue = true) : r.made = r := by
  unfold made
  rw [carriedValue_of_carries h]

end Request

namespace Engine

variable (e : Engine) {r : Request} {paid : Accounts}

/-- The engine in which a callee starts: the accounts of before are put aside, and the value has
been moved. -/
def entering (e : Engine) (paid : Accounts) : Engine :=
  e.withState { e.world.state.snapshot.2 with accounts := paid }

/-- What is active at the target of a call, as it is run for the call. -/
def callee (e : Engine) (paid : Accounts) (r : Request) : Handling × Run Bytes :=
  r.made.runTarget e.setting
    (PrecompileHost.dispatch e.setting (e.setting.levels (e.context.depth + 1))) e.context
    (e.entering paid).world

variable {e}

theorem dispatch_of_unfunded (hdepth : e.context.depth ≤ e.setting.maxDepth)
    (h : e.world.state.accounts.balance r.caller.address < r.carriedValue) :
    e.dispatch r = .refused r.made e.context .unfunded .insufficientBalance e.world := by
  rw [dispatch, dispatch_levels_of_le _ _ _ _ hdepth, Request.execute_of_unfunded h]

theorem dispatch_of_overfull (hdepth : e.context.depth ≤ e.setting.maxDepth)
    (hcovered : ¬ e.world.state.accounts.balance r.caller.address < r.carriedValue)
    (h : e.world.state.accounts.transfer? r.caller.address r.target r.movedValue = none) :
    (e.dispatch r).record.handling = .overfull ∧
      (e.dispatch r).record.ending = .returned ⟨.error .insufficientBalance, 0⟩ ∧
      (e.dispatch r).world = e.world := by
  have hfund : r.made.fund? e.world.state.snapshot.2 = none := by
    rw [Request.fund?_made, State.accounts_snapshot, h]
    rfl
  rw [dispatch, dispatch_levels_of_le _ _ _ _ hdepth, Request.execute_of_overfull hcovered hfund,
    Dispatched.settle_of_error _ _ _ _ _ _ rfl]
  refine ⟨rfl, rfl, ?_⟩
  rw [e.world.state.revertTo_eq_of_snapshots rfl]

/-- A call whose value has been moved is settled by its callee. -/
theorem dispatch_of_funded (hdepth : e.context.depth ≤ e.setting.maxDepth)
    (h : r.Funded e.world.state.accounts paid) :
    e.dispatch r = .settle r.made e.context e.world.state.snapshots.length
      (e.entering paid).world.state (e.callee paid r).1 (e.callee paid r).2 := by
  have hfund : r.made.fund? e.world.state.snapshot.2 = some (e.entering paid).world.state := by
    rw [Request.fund?_made, State.accounts_snapshot, h.transfer]
    rfl
  rw [dispatch, dispatch_levels_of_le _ _ _ _ hdepth, Request.execute_of_funded h.covered hfund]
  rfl

theorem commit_entering (e : Engine) (paid : Accounts) :
    (e.entering paid).world.state.commit e.world.state.snapshots.length =
      (e.world.holding paid).state :=
  e.world.state.commit_eq_of_snapshots rfl

theorem revertTo_entering (e : Engine) (paid : Accounts) :
    (e.entering paid).world.state.revertTo e.world.state.snapshots.length = e.world.state :=
  e.world.state.revertTo_eq_of_snapshots rfl

theorem isReached_callee (e : Engine) (paid : Accounts) (r : Request) :
    (e.callee paid r).1.isReached = true := by
  have hhandled := r.made.handled_runTarget e.setting (e.setting.levels (e.context.depth + 1))
    e.context (e.entering paid).world
  change (r.made.runTarget _ _ _ _).1.isReached = true
  generalize r.made.runTarget e.setting _ e.context _ = callee at hhandled ⊢
  obtain ⟨handling, run⟩ := callee
  cases hhandled <;> rfl

theorem isReached_dispatch (hdepth : e.context.depth ≤ e.setting.maxDepth)
    (h : r.Funded e.world.state.accounts paid) :
    (e.dispatch r).record.handling.isReached = true := by
  rw [dispatch_of_funded hdepth h, Dispatched.handling_settle]
  exact isReached_callee e paid r

theorem callee_of_none (hactive : e.setting.active.get? r.target = none) :
    e.callee paid r =
      (.codeless, ⟨.returned (.ok []), r.gas, (e.entering paid).world, .done⟩) := by
  unfold callee Request.runTarget
  simp only [Request.target_made, hactive, Request.gas_made]

theorem callee_of_underpaid {p : Precompile} (hactive : e.setting.active.get? r.target = some p)
    (hgas : r.gas < p.requiredGas r.input) :
    e.callee paid r =
      (.underpaid (p.requiredGas r.input),
        ⟨.returned (.error .outOfGas), 0, (e.entering paid).world, .done⟩) := by
  unfold callee Request.runTarget
  simp only [Request.target_made, hactive, Request.gas_made, Request.input_made]
  cases p with
  | stateless price run =>
    have hprice : Gas.sub? r.gas (price r.input) = none := Gas.sub?_eq_none_iff.mpr hgas
    simp only [hprice, Precompile.requiredGas]
  | stateful routine => exact absurd hgas UInt64.not_lt_zero

/-- With its price paid, what is active at the target is run as it would be on its own. -/
theorem callee_of_paid {p : Precompile} (hactive : e.setting.active.get? r.target = some p)
    (hgas : p.requiredGas r.input ≤ r.gas) :
    e.callee paid r =
      (e.entering paid).runAlone p { r.made with gas := r.gas - p.requiredGas r.input } := by
  unfold callee Request.runTarget
  simp only [Request.target_made, hactive, Request.gas_made, Request.input_made]
  cases p with
  | stateless price run =>
    have hprice : Gas.sub? r.gas (price r.input) = some (r.gas - price r.input) :=
      Gas.sub?_of_le hgas
    simp only [hprice]
    rfl
  | stateful routine =>
    simp only [runAlone, Precompile.requiredGas, UInt64.sub_zero]
    rfl

end Engine

/-! ### The rule -/

namespace Request

variable (r : Request) (as paid : Accounts)

/-- The target has no room for the value that a plain call is to move. -/
def Overfills : Prop :=
  r.callType = .call ∧ r.caller.address ≠ r.target ∧
    Word.size ≤ (as.balance r.target).toNat + r.value.toNat

/-- What the value of a call makes of the accounts that its callee finds: a plain call has moved
it, and no other call moves anything. -/
structure Pays : Prop where
  sent : r.callType = .call → r.value ≠ 0 → r.caller.address ≠ r.target →
    as.Sent r.caller.address r.target r.value paid
  kept : r.callType ≠ .call ∨ r.value = 0 ∨ r.caller.address = r.target → paid = as

instance : Decidable (r.Overfills as) :=
  inferInstanceAs (Decidable (_ ∧ _ ∧ _))

variable {r as paid}

theorem movedValue_of_call (h : r.callType = .call) : r.movedValue = r.value :=
  if_pos h

theorem movedValue_of_ne_call (h : r.callType ≠ .call) : r.movedValue = 0 :=
  if_neg h

theorem Funded.pays (h : r.Funded as paid) : r.Pays as paid where
  sent hcall hvalue hne := by
    rw [← movedValue_of_call hcall] at hvalue ⊢
    exact Accounts.sent_of_transfer? hvalue hne h.transfer
  kept hkept := by
    refine (Accounts.eq_of_transfer?_iff h.transfer).mpr ?_
    by_cases hcall : r.callType = .call
    · rw [movedValue_of_call hcall]
      exact hkept.resolve_left (not_not_intro hcall)
    · exact .inl (movedValue_of_ne_call hcall)

theorem transfer?_eq_none_iff_overfills (hle : r.value ≤ as.balance r.caller.address) :
    as.transfer? r.caller.address r.target r.movedValue = none ↔ r.Overfills as := by
  by_cases hcall : r.callType = .call
  · rw [movedValue_of_call hcall, Accounts.transfer?_eq_none_iff_of_le hle]
    exact (and_iff_right hcall).symm
  · rw [movedValue_of_ne_call hcall, Accounts.transfer?, if_pos rfl]
    exact iff_of_false (Option.some_ne_none _) fun h => hcall h.1

end Request

namespace Engine

variable {e : Engine} {r : Request} {paid : Accounts}

/-- The callee of a call is reached with the accounts `paid`, and settles the call. -/
structure Enters (e : Engine) (r : Request) (paid : Accounts) : Prop where
  found : (e.dispatch r).record.found.accounts = paid
  /-- Where nothing is active at the target, the call succeeds and keeps its gas. -/
  codeless : e.setting.active.get? r.target = none →
    (e.dispatch r).record.ending = .returned ⟨.ok [], r.gas⟩ ∧
      (e.dispatch r).world = e.world.holding paid
  underpaid : ∀ p, e.setting.active.get? r.target = some p → r.gas < p.requiredGas r.input →
    (e.dispatch r).record.ending = .returned ⟨.error .outOfGas, 0⟩ ∧
      (e.dispatch r).world = e.world
  /-- What is active is charged its price, and what it comes to on its own settles the call. -/
  run : ∀ p, e.setting.active.get? r.target = some p → p.requiredGas r.input ≤ r.gas →
    ∀ callee,
      (e.entering paid).runAlone p { r with gas := r.gas - p.requiredGas r.input } = callee →
        e.dispatch r = .settle r e.context e.world.state.snapshots.length
          (e.entering paid).world.state callee.1 callee.2

theorem enters_of_funded (hdepth : e.context.depth ≤ e.setting.maxDepth)
    (hcarries : r.callType.carriesValue = true) (h : r.Funded e.world.state.accounts paid) :
    e.Enters r paid := by
  have hdispatch := dispatch_of_funded hdepth h
  have hmade := Request.made_of_carries hcarries
  refine ⟨?_, fun hactive => ?_, fun p hactive hgas => ?_, fun p hactive hgas callee hcallee => ?_⟩
  · rw [hdispatch, Dispatched.found_settle]
    rfl
  · rw [hdispatch, callee_of_none hactive, Dispatched.settle_of_ok _ _ _ _ _ _ rfl]
    refine ⟨rfl, ?_⟩
    rw [commit_entering]
    rfl
  · rw [hdispatch, callee_of_underpaid hactive hgas, Dispatched.settle_of_error _ _ _ _ _ _ rfl]
    refine ⟨rfl, ?_⟩
    rw [revertTo_entering]
    rfl
  · rw [hdispatch, callee_of_paid hactive hgas, hmade, hcallee]

/-- What becomes of a call for its value. The call is turned away before its callee is reached if
its caller's balance is below the value, and it fails there if the target has no room for the value
of a plain call; both failures have the same error, but only the first gives the gas back. Any other
call reaches its callee, which finds the value moved. -/
theorem value_rule (e : Engine) (hdepth : e.context.depth ≤ e.setting.maxDepth) (r : Request)
    (hcarries : r.callType.carriesValue = true) :
    ((e.dispatch r).record.handling.isReached = false ↔
      e.world.state.accounts.balance r.caller.address < r.value ∨
        r.Overfills e.world.state.accounts) ∧
    (e.world.state.accounts.balance r.caller.address < r.value →
      (e.dispatch r).record.ending = .returned ⟨.error .insufficientBalance, r.gas⟩ ∧
        (e.dispatch r).world = e.world) ∧
    (r.value ≤ e.world.state.accounts.balance r.caller.address →
      r.Overfills e.world.state.accounts →
        (e.dispatch r).record.ending = .returned ⟨.error .insufficientBalance, 0⟩ ∧
          (e.dispatch r).world = e.world) ∧
    (r.value ≤ e.world.state.accounts.balance r.caller.address →
      ¬ r.Overfills e.world.state.accounts →
        ∃ paid, r.Pays e.world.state.accounts paid ∧ e.Enters r paid) := by
  have hcarried := Request.carriedValue_of_carries hcarries
  by_cases hbalance : e.world.state.accounts.balance r.caller.address < r.value
  · have hrefused := dispatch_of_unfunded hdepth (hcarried ▸ hbalance)
    have hnot := BitVec.not_le.mpr hbalance
    rw [hrefused]
    exact ⟨iff_of_true rfl (.inl hbalance), fun _ => ⟨rfl, rfl⟩, fun hle => absurd hle hnot,
      fun hle => absurd hle hnot⟩
  · have hle := BitVec.not_lt.mp hbalance
    have hcovered : ¬ e.world.state.accounts.balance r.caller.address < r.carriedValue := by
      rw [hcarried]
      exact hbalance
    have hoverfills := Request.transfer?_eq_none_iff_overfills hle
    -- only now is it seen whether the target has room, and what was debited is taken back if not
    cases htransfer : e.world.state.accounts.transfer? r.caller.address r.target r.movedValue with
    | none =>
      have hroom := hoverfills.mp htransfer
      obtain ⟨hhandling, hending, hworld⟩ := dispatch_of_overfull hdepth hcovered htransfer
      rw [hhandling]
      exact ⟨iff_of_true rfl (.inr hroom), fun h => absurd h hbalance,
        fun _ _ => ⟨hending, hworld⟩, fun _ h => absurd hroom h⟩
    | some paid =>
      have hfunded : r.Funded e.world.state.accounts paid := ⟨hcovered, htransfer⟩
      have hroom : ¬ r.Overfills e.world.state.accounts := fun h => by
        cases htransfer.symm.trans (hoverfills.mpr h)
      rw [isReached_dispatch hdepth hfunded]
      exact ⟨iff_of_false (by decide) (not_or.mpr ⟨hbalance, hroom⟩), fun h => absurd h hbalance,
        fun _ h => absurd h hroom,
        fun _ _ => ⟨paid, hfunded.pays, enters_of_funded hdepth hcarries hfunded⟩⟩

end Engine

namespace Brim

/-- Hands back its input, for 30 gas. -/
def mirror : Precompile :=
  .stateless (fun _ => 30) .ok

/-- An engine in which one account holds as much as an account can. -/
def engine : Engine :=
  Engine.create { accounts := ((∅ : Accounts).setBalance 0xa1 7).setBalance 0xb1 Word.largest }
    (WordMap.ofList [(0xc0, mirror)])

def payment (target : Address) (value : Word) : Request :=
  { callType := .call, caller := .account 0xa1, target, input := [1], gas := 1000, value }

/-- The payer cannot pay 8. Of 7, the mirror runs with what is left of the gas, and the full account
fails the call. -/
theorem engine_value_rule :
    (engine.dispatch (payment 0xb2 8)).record.ending =
        .returned ⟨.error .insufficientBalance, 1000⟩ ∧
      (engine.dispatch (payment 0xb1 7)).record.ending =
        .returned ⟨.error .insufficientBalance, 0⟩ ∧
      ∃ paid, (payment 0xc0 7).Pays engine.world.state.accounts paid ∧
        engine.Enters (payment 0xc0 7) paid ∧
          (engine.dispatch (payment 0xc0 7)).record.ending = .returned ⟨.ok [1], 970⟩ := by
  have hrule : ∀ target value, _ := fun target value =>
    Engine.value_rule engine (by decide) (payment target value) rfl
  obtain ⟨-, hrefused, -, -⟩ := hrule 0xb2 8
  obtain ⟨-, -, hoverfull, -⟩ := hrule 0xb1 7
  obtain ⟨-, -, -, hreached⟩ := hrule 0xc0 7
  obtain ⟨paid, hpays, henters⟩ := hreached (by decide +kernel) (by decide +kernel)
  refine ⟨(hrefused (by decide +kernel)).1, ?_, paid, hpays, henters, ?_⟩
  · exact (hoverfull (by decide +kernel) (by decide +kernel)).1
  · rw [henters.run mirror rfl (by decide) _ rfl]
    rfl

/-- So a caller who has the value can be told that his balance is insufficient, and lose his gas. -/
theorem engine_refuses_covered_value :
    engine.context.depth ≤ engine.setting.maxDepth ∧
      ¬ engine.world.state.accounts.balance 0xa1 < 1 ∧
      (engine.call (.account 0xa1) 0xb1 [] 1000 1).record.handling.isReached = false ∧
      (engine.call (.account 0xa1) 0xb1 [] 1000 1).record.ending =
        .returned ⟨.error .insufficientBalance, 0⟩ := by
  refine ⟨?_, ?_, rfl, rfl⟩ <;> decide +kernel

end Brim

end PrecompileHost
