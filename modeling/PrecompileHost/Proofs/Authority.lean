import PrecompileHost.Proofs.Attribution
import PrecompileHost.Proofs.Installation
import PrecompileHost.Proofs.Mint.Effects
import PrecompileHost.Proofs.TokenDuality.Hosting

/-!
Nothing changes without authority. Among routines that write nothing themselves, an account loses
only by what it has sent, by what the admin of the mint precompile has burned there, or by a
transfer that the token duality precompile was allowed to make; the allowlist is changed by that
precompile's admin alone; and nonces, and the storage of all other accounts, are left as they are.
-/

namespace PrecompileHost.Native

/-! ### Effects of the shipped precompiles, account by account -/

namespace Mint

variable {call : NativeTokenCall} {as bs : Accounts} {x : Address}

theorem nonce_of_effected (h : Effected as call bs) : bs.nonce x = as.nonce x := by
  cases h with
  | minted hcredit => rw [Accounts.nonce_of_credit? hcredit, Accounts.nonce_create]
  | burned hdebit => rw [Accounts.nonce_of_debit? hdebit, Accounts.nonce_create]

theorem storage_of_effected (h : Effected as call bs) (key : Word) :
    bs.storage x key = as.storage x key := by
  cases h with
  | minted hcredit => rw [Accounts.storage_of_credit? hcredit, Accounts.storage_create]
  | burned hdebit => rw [Accounts.storage_of_debit? hdebit, Accounts.storage_create]

theorem burn_of_effected (h : Effected as call bs) (hless : bs.balance x < as.balance x) :
    ∃ amount, call = .burn x amount := by
  cases h with
  | minted hcredit =>
    rw [← as.balance_create] at hless
    exact absurd hless (BitVec.not_lt.mpr (Accounts.balance_le_of_credit? hcredit))
  | @burned holder amount _ hdebit =>
    by_cases hx : x = holder
    · exact ⟨amount, by rw [hx]⟩
    · rw [Accounts.balance_of_debit? hdebit hx, Accounts.balance_create] at hless
      exact absurd hless (BitVec.lt_irrefl _)

end Mint

namespace TokenDuality

variable {c : Config} {caller source target x : Address} {block amount : Word} {readOnly : Bool}
  {call : TokenDualityCall} {output : Bytes} {as bs : Accounts}

theorem source_of_transferred (h : Transferred c block source target amount as bs)
    (hless : bs.balance x < as.balance x) : source = x := by
  cases h with
  | stayed => exact absurd hless (BitVec.lt_irrefl _)
  | @moved tracked debited _ _ _ _ _ htracked hdebit hcredit =>
    have htotal : tracked.balance x = as.balance x :=
      kept_of_tracked (·.balance x) (fun as a => as.balance_create a x)
        (fun as key value _ => as.balance_setStorage address x key value) htracked
    refine Decidable.byContradiction fun hne => ?_
    have hkept : debited.balance x = as.balance x := by
      rw [Accounts.balance_of_debit? hdebit (Ne.symm hne), Accounts.balance_create,
        Accounts.balance_create, htotal]
    rw [← hkept] at hless
    exact BitVec.not_lt.mpr (Accounts.balance_le_of_credit? hcredit) hless

/-- What a transfer stores is a total, in slots that are no one's entry in the allowlist. -/
theorem entry_of_transferred (h : Transferred c block source target amount as bs) :
    bs.storage address x.toWord = as.storage address x.toWord := by
  refine kept_of_transferred (·.storage address x.toWord)
    (fun as a => as.storage_create a address _) (fun as key value hkey => ?_)
    (fun hdebit hcredit => ?_) h
  · rw [Accounts.storage_setStorage, if_neg]
    rintro ⟨-, rfl⟩
    exact hkey.elim (toWord_ne_blockSlot x) (toWord_ne_totalSlot x)
  · rw [Accounts.storage_of_credit? hcredit, Accounts.storage_of_debit? hdebit]

theorem nonce_of_effected (h : Effected c caller block readOnly as call output bs) :
    bs.nonce x = as.nonce x := by
  refine kept_of_effected (·.nonce x) (fun as a => as.nonce_create a x)
    (fun as key value => as.nonce_setStorage address x key value) (fun hdebit hcredit => ?_) h
  rw [Accounts.nonce_of_credit? hcredit, Accounts.nonce_of_debit? hdebit]

theorem storage_of_effected (h : Effected c caller block readOnly as call output bs)
    (hx : x ≠ address) (key : Word) : bs.storage x key = as.storage x key := by
  refine kept_of_effected (·.storage x key) (fun as a => as.storage_create a x key)
    (fun as slot value => ?_) (fun hdebit hcredit => ?_) h
  · rw [Accounts.storage_setStorage, if_neg fun h => hx h.1]
  · rw [Accounts.storage_of_credit? hcredit, Accounts.storage_of_debit? hdebit]

theorem transfer_of_effected (h : Effected c caller block readOnly as call output bs)
    (hless : bs.balance x < as.balance x) :
    (∃ target amount, call = .transfer x target amount) ∧ Authorized c as caller := by
  cases h with
  | @transferred _ target amount _ hauthorized _ htransferred =>
    refine ⟨⟨target, amount, ?_⟩, hauthorized⟩
    rw [source_of_transferred htransferred hless]
  | updated =>
    simp only [enlist, Accounts.balance_setStorage, Accounts.balance_create] at hless
    exact absurd hless (BitVec.lt_irrefl _)
  | viewed => exact absurd hless (BitVec.lt_irrefl _)

theorem update_of_effected (h : Effected c caller block readOnly as call output bs)
    (hchanged : bs.storage address x.toWord ≠ as.storage address x.toWord) :
    (∃ listed, update? call = some (x, listed)) ∧ caller = c.admin := by
  cases h with
  | transferred _ _ htransferred => exact absurd (entry_of_transferred htransferred) hchanged
  | @updated _ a listed hupdate hadmin =>
    have hslot : x.toWord = a.toWord := by
      refine Decidable.byContradiction fun hne => hchanged ?_
      rw [enlist, Accounts.storage_setStorage, if_neg fun h => hne h.2, Accounts.storage_create]
    have hx : x = a := Address.toWord_inj.mp hslot
    exact ⟨⟨listed, by rw [hx]; exact hupdate⟩, hadmin⟩
  | viewed => exact absurd rfl hchanged

end TokenDuality

/-! ### Calls that answer for changes -/

namespace Config

/-- The call may make `x` lose: it sends a value of its own, or the mint precompile burns there for
its admin, or the token duality precompile transfers from there for a caller who is its admin or was
on the allowlist in the state that the frame found. -/
inductive Spends (c : Config) (x : Address) (r : CallRecord) : Prop
  | sent (htype : r.request.callType = .call) (hvalue : r.request.value ≠ 0)
      (hsource : r.request.caller.address = x)
  | burned {frame : Frame} {amount : Word} (hframe : r.handling = .entered frame)
      (hasked : Mint.asked? r = some (.burn x amount))
      (hadmin : c.mintAdmin = some frame.contract.caller)
  | transferred {duality : TokenDuality.Config} {frame : Frame} {target : Address} {amount : Word}
      (hduality : c.tokenDuality = some duality) (hframe : r.handling = .entered frame)
      (hasked : TokenDuality.asked? r = some (.transfer x target amount))
      (hauthorized : TokenDuality.Authorized duality r.found.accounts frame.contract.caller)

/-- The call may change the entry of `x` in the allowlist: the token duality precompile sets it for
its admin. -/
inductive Lists (c : Config) (x : Address) (r : CallRecord) : Prop
  | updated {duality : TokenDuality.Config} {frame : Frame} {call : TokenDualityCall}
      {listed : Bool} (hduality : c.tokenDuality = some duality)
      (hframe : r.handling = .entered frame) (hasked : TokenDuality.asked? r = some call)
      (hupdate : TokenDuality.update? call = some (x, listed))
      (hadmin : frame.contract.caller = duality.admin)

/-- Every change from `as` to `bs` has a call that answers for it. -/
structure Justified (c : Config) (as : Accounts) (calls : List CallRecord) (bs : Accounts) :
    Prop where
  balances : ∀ x, bs.balance x < as.balance x → ∃ r ∈ calls, c.Spends x r
  allowlist : ∀ x, bs.storage TokenDuality.address x.toWord ≠
    as.storage TokenDuality.address x.toWord → ∃ r ∈ calls, c.Lists x r
  nonces : ∀ x, bs.nonce x = as.nonce x
  storages : ∀ x key, x ≠ TokenDuality.address → bs.storage x key = as.storage x key

namespace Justified

variable {c : Config} {as bs cs : Accounts} {calls calls' : List CallRecord} {r : CallRecord}

theorem refl (c : Config) (as : Accounts) : c.Justified as [] as :=
  ⟨fun _ h => absurd h (BitVec.lt_irrefl _), fun _ h => absurd rfl h, fun _ => rfl,
    fun _ _ _ => rfl⟩

/-- What is different after two changes was changed by one of them. -/
theorem trans (h : c.Justified as calls bs) (h' : c.Justified bs calls' cs) :
    c.Justified as (calls ++ calls') cs where
  balances x hless := by
    by_cases hfirst : bs.balance x < as.balance x
    · obtain ⟨r, hr, hspends⟩ := h.balances x hfirst
      exact ⟨r, List.mem_append_left _ hr, hspends⟩
    · have hkept : as.balance x ≤ bs.balance x := BitVec.not_lt.mp hfirst
      have hsecond : cs.balance x < bs.balance x := by
        rw [BitVec.lt_def] at hless ⊢
        exact Nat.lt_of_lt_of_le hless (BitVec.le_def.mp hkept)
      obtain ⟨r, hr, hspends⟩ := h'.balances x hsecond
      exact ⟨r, List.mem_append_right _ hr, hspends⟩
  allowlist x hchanged := by
    by_cases hfirst : bs.storage TokenDuality.address x.toWord =
        as.storage TokenDuality.address x.toWord
    · rw [← hfirst] at hchanged
      obtain ⟨r, hr, hlists⟩ := h'.allowlist x hchanged
      exact ⟨r, List.mem_append_right _ hr, hlists⟩
    · obtain ⟨r, hr, hlists⟩ := h.allowlist x hfirst
      exact ⟨r, List.mem_append_left _ hr, hlists⟩
  nonces x := (h'.nonces x).trans (h.nonces x)
  storages x key hx := (h'.storages x key hx).trans (h.storages x key hx)

theorem mono (h : c.Justified as calls bs) (hcalls : calls ⊆ calls') :
    c.Justified as calls' bs where
  balances x hless := by
    obtain ⟨r, hr, hspends⟩ := h.balances x hless
    exact ⟨r, hcalls hr, hspends⟩
  allowlist x hchanged := by
    obtain ⟨r, hr, hlists⟩ := h.allowlist x hchanged
    exact ⟨r, hcalls hr, hlists⟩
  nonces := h.nonces
  storages := h.storages

theorem sent (htype : r.request.callType = .call)
    (h : as.transfer? r.request.caller.address r.request.target r.request.value = some bs) :
    c.Justified as [r] bs where
  balances x hless := by
    obtain ⟨hvalue, hsource⟩ := Accounts.source_of_transfer? h hless
    exact ⟨r, List.mem_singleton_self r, .sent htype hvalue hsource⟩
  allowlist x hchanged := absurd (Accounts.storage_of_transfer? h _) hchanged
  nonces x := Accounts.nonce_of_transfer? h
  storages x key _ := Accounts.storage_of_transfer? h key

theorem mint {frame : Frame} {call : NativeTokenCall} (hframe : r.handling = .entered frame)
    (hasked : Mint.asked? r = some call) (hadmin : c.mintAdmin = some frame.contract.caller)
    (h : Mint.Effected as call bs) : c.Justified as [r] bs where
  balances x hless := by
    obtain ⟨amount, rfl⟩ := Mint.burn_of_effected h hless
    exact ⟨r, List.mem_singleton_self r, .burned hframe hasked hadmin⟩
  allowlist x hchanged := absurd (Mint.storage_of_effected h _) hchanged
  nonces x := Mint.nonce_of_effected h
  storages x key _ := Mint.storage_of_effected h key

theorem tokenDuality {duality : TokenDuality.Config} {frame : Frame} {call : TokenDualityCall}
    {block : Word} {readOnly : Bool} {output : Bytes} (hduality : c.tokenDuality = some duality)
    (hframe : r.handling = .entered frame) (hasked : TokenDuality.asked? r = some call)
    (hfound : r.found.accounts = as)
    (h : TokenDuality.Effected duality frame.contract.caller block readOnly as call output bs) :
    c.Justified as [r] bs where
  balances x hless := by
    obtain ⟨⟨target, amount, rfl⟩, hauthorized⟩ := TokenDuality.transfer_of_effected h hless
    rw [← hfound] at hauthorized
    exact ⟨r, List.mem_singleton_self r, .transferred hduality hframe hasked hauthorized⟩
  allowlist x hchanged := by
    obtain ⟨⟨listed, hupdate⟩, hadmin⟩ := TokenDuality.update_of_effected h hchanged
    exact ⟨r, List.mem_singleton_self r, .updated hduality hframe hasked hupdate hadmin⟩
  nonces x := TokenDuality.nonce_of_effected h
  storages x key hx := TokenDuality.storage_of_effected h hx key

end Justified

/-- The routines of an installation among others that write nothing answer for all changes. -/
theorem attribution_justified {c : Config} {others : Registry}
    (hothers : others.Only fun _ o => o.isWrite = false) {s : Setting}
    (hactive : c.Governs others s.active) : s.Attribution c.Justified where
  refl := .refl c
  trans := .trans
  mono := .mono
  sent r := .sent
  routines := by
    intro a routine hroutine
    cases hactive.provides hothers hroutine with
    | @mint admin haddress hadmin htext =>
      subst haddress htext
      refine .leaf (Mint.leaf_routine _) fun h frame input gas w output _ hok r htarget hinput
        hhandling _ => ?_
      obtain ⟨hcaller, -, -, -, call, hdecode, as, heffected, hafter⟩ :=
        Mint.yields_routine.mp (Program.yields_of_ending hok)
      rw [hafter, World.accounts_holding]
      rw [← hinput] at hdecode
      exact .mint hhandling (CallRecord.asked?_of_entered htarget hhandling hdecode)
        (by rw [hadmin, hcaller]) heffected
    | tokenDuality haddress hduality htext =>
      subst haddress htext
      refine .leaf (TokenDuality.leaf_routine _) fun h frame input gas w output _ hok r htarget
        hinput hhandling hfound => ?_
      obtain ⟨call, hdecode, as, heffected, -, hafter⟩ :=
        TokenDuality.yields_routine.mp (Program.yields_of_ending hok)
      rw [hafter, World.accounts_holding]
      rw [← hinput] at hdecode
      exact .tokenDuality hduality hhandling
        (CallRecord.asked?_of_entered htarget hhandling hdecode) (congrArg State.accounts hfound)
        heffected
    | other hmint hduality htext => exact .bystander htext

end Config

/-- After a call or a transaction that returns, every change is answered for by a call that stands,
wherever in its tree that call was made and whatever it was asked with: an account has lost only by
such a call with authority over it, an entry of the allowlist was changed only for the precompile's
admin, and nothing else has changed at all. -/
theorem changes_authorized (c : Config) (others : Registry)
    (hothers : others.Only fun _ o => o.isWrite = false) (e : Engine)
    (hactive : c.Governs others e.setting.active) (s : Engine.Step) (d : Dispatched)
    (hmade : e.made? s = some d) (outcome : Outcome)
    (hreturned : d.record.ending = .returned outcome) :
    c.Justified e.world.state.accounts d.standing (e.step s).world.state.accounts := by
  obtain ⟨-, hstate, -⟩ := Engine.dispatch_of_made? hmade
  have hattributed : d.Attributed c.Justified e.world.state.accounts :=
    Engine.attributed_of_made? (fun setting hsetting =>
      Config.attribution_justified hothers (hsetting ▸ hactive)) hmade
  rw [hstate]
  exact hattributed outcome hreturned

namespace Broker

def config : Config :=
  { tokenDuality := some { admin := 0xa0 } }

/-- Has itself listed in the name of its caller, and then makes a transfer in its own name. -/
def broker (_ : Bytes) : Program Bytes := do
  discard <| Program.callOut
    { target := TokenDuality.address
      input := (TokenDualityCall.addToAllowList 0xb0).encode
      gas := 100000
      value := 0
      options := [.callerProxying] }
  discard <| Program.callOut
    { target := TokenDuality.address
      input := (TokenDualityCall.transfer 0xa1 0xa2 60).encode
      gas := 100000
      value := 0 }
  pure []

def others : Registry :=
  WordMap.ofList [(0xb0, .stateful broker)]

def engine : Engine :=
  Engine.create { accounts := (∅ : Accounts).setBalance 0xa1 100 } (config.install others)

def request : Request :=
  { callType := .call, caller := .account 0xa0, target := 0xb0, input := [], gas := 1000000,
    value := 0 }

theorem others_silent : others.Only fun _ o => o.isWrite = false :=
  Registry.only_empty.insert fun _ _ _ => trivial

set_option maxRecDepth 2000 in
/-- The account that nobody has asked loses to one that was listed in the same call tree. -/
theorem engine_changes_authorized :
    (engine.step (.call request)).world.state.accounts.balance 0xa1 = 40 ∧
      (∃ r ∈ (engine.dispatch request).standing, config.Spends 0xa1 r) ∧
      ∃ r ∈ (engine.dispatch request).standing, config.Lists 0xb0 r := by
  have hbalance : (engine.step (.call request)).world.state.accounts.balance 0xa1 = 40 := by
    decide +kernel
  have hless : (engine.step (.call request)).world.state.accounts.balance 0xa1 <
      engine.world.state.accounts.balance 0xa1 := by
    decide +kernel
  have hlisted : (engine.step (.call request)).world.state.accounts.storage TokenDuality.address
      (0xb0 : Address).toWord ≠
        engine.world.state.accounts.storage TokenDuality.address (0xb0 : Address).toWord := by
    decide +kernel
  have hreturned : (engine.dispatch request).record.ending = .returned ⟨.ok [], 922000⟩ := rfl
  have hjustified := changes_authorized config others others_silent engine
    (config.governs_activate others _ _) (.call request) _ rfl _ hreturned
  exact ⟨hbalance, hjustified.balances 0xa1 hless, hjustified.allowlist 0xb0 hlisted⟩

end Broker

end PrecompileHost.Native
