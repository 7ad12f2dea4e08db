import Mathlib.Algebra.Ring.Nat
import PrecompileHost.Proofs.Installation
import PrecompileHost.Proofs.Mint.Effects
import PrecompileHost.Proofs.TokenDuality.Hosting

/-!
The supply of native tokens, the sum of all balances. Values that are sent and tokens that are
transferred stay within it, whichever accounts coincide, and failures have no part in it; it grows
by what is minted and shrinks by what is burned, and by nothing else, in call trees of every shape.
-/

namespace PrecompileHost

namespace WordMap

variable {w : Nat} {α : Type}

/-- The sum of a measure of all values. -/
def total (f : α → Nat) (m : WordMap w α) : Nat :=
  (m.entries.map fun e => f e.2).sum

theorem sum_insertEntry (f : α → Nat) (k : BitVec w) (v : α) {l : List (BitVec w × α)}
    (h : l.Pairwise (fun a b => a.1 < b.1)) :
    ((insertEntry k v l).map fun e => f e.2).sum + ((lookupEntry k l).map f).getD 0 =
      (l.map fun e => f e.2).sum + f v := by
  induction l with
  | nil => simp [insertEntry, lookupEntry]
  | cons e rest ih =>
    obtain ⟨j, u⟩ := e
    have hrest := List.pairwise_cons.mp h
    unfold insertEntry
    split
    · rename_i hlt
      -- every later key is larger still, so `k` is not bound
      have hnone : lookupEntry k ((j, u) :: rest) = none := by
        refine lookupEntry_eq_none fun e he heq => BitVec.lt_irrefl k ?_
        rcases List.mem_cons.mp he with rfl | he
        · exact heq ▸ hlt
        · exact BitVec.lt_trans hlt (heq ▸ hrest.1 e he)
      rw [hnone]
      simp [Nat.add_comm]
    · split
      · rename_i heq
        simp [lookupEntry, heq]
        omega
      · rename_i hne
        have hih := ih hrest.2
        simp only [lookupEntry, if_neg hne, List.map_cons, List.sum_cons]
        omega

/-- Binding a key replaces what it contributed before, if anything. -/
theorem total_insert (f : α → Nat) (m : WordMap w α) (k : BitVec w) (v : α) :
    (m.insert k v).total f + ((m.get? k).map f).getD 0 = m.total f + f v :=
  sum_insertEntry f k v m.ascending

end WordMap

namespace Accounts

variable {as bs : Accounts} {a : Address} {amount : Word}

/-- The sum of all balances. -/
def supply (as : Accounts) : Nat :=
  as.total fun account => account.balance.toNat

theorem supply_update (as : Accounts) (a : Address) (f : Account → Account) :
    (as.update a f).supply + (as.balance a).toNat =
      as.supply + (f (as.account a)).balance.toNat := by
  have htotal := as.total_insert (fun account => account.balance.toNat) a (f (as.account a))
  have hbefore : ((as.get? a).map fun account => account.balance.toNat).getD 0 =
      (as.balance a).toNat := by
    unfold balance account
    cases as.get? a <;> rfl
  rw [hbefore] at htotal
  exact htotal

@[simp] theorem supply_create (as : Accounts) (a : Address) :
    (as.create a).supply = as.supply :=
  Nat.add_right_cancel (as.supply_update a id)

@[simp] theorem supply_setNonce (as : Accounts) (a : Address) (nonce : UInt64) :
    (as.setNonce a nonce).supply = as.supply :=
  Nat.add_right_cancel (as.supply_update a _)

@[simp] theorem supply_setStorage (as : Accounts) (a : Address) (key value : Word) :
    (as.setStorage a key value).supply = as.supply :=
  Nat.add_right_cancel (as.supply_update a _)

theorem supply_of_credit? (h : as.credit? a amount = some bs) :
    bs.supply = as.supply + amount.toNat := by
  obtain ⟨balance, hadd, rfl⟩ := Option.map_eq_some_iff.mp h
  have hbalance := Word.toNat_of_add?_eq_some hadd
  have hupdate : (as.setBalance a balance).supply + (as.balance a).toNat =
      as.supply + balance.toNat := as.supply_update a _
  omega

theorem supply_of_debit? (h : as.debit? a amount = some bs) :
    bs.supply + amount.toNat = as.supply := by
  obtain ⟨balance, hsub, rfl⟩ := Option.map_eq_some_iff.mp h
  have hbalance := Word.toNat_of_sub?_eq_some hsub
  have hupdate : (as.setBalance a balance).supply + (as.balance a).toNat =
      as.supply + balance.toNat := as.supply_update a _
  omega

/-- What one account loses another one gains, or the same one. -/
theorem supply_of_transfer? {source target : Address} {value : Word}
    (h : as.transfer? source target value = some bs) : bs.supply = as.supply := by
  unfold transfer? at h
  split at h
  · cases h
    rfl
  · obtain ⟨debited, hdebit, hcredit⟩ := Option.bind_eq_some_iff.mp h
    rw [supply_of_credit? hcredit, supply_of_debit? hdebit]

end Accounts

/-- The operation sets, raises or lowers a balance. -/
def Operation.setsBalance : Operation → Bool
  | .write (.setBalance _ _) | .write (.credit _ _) | .write (.debit _ _) => true
  | _ => false

/-- The operation handles no snapshots and writes no balance. -/
def Operation.SparesBalances (o : Operation) : Prop :=
  o.handlesSnapshots = false ∧ o.setsBalance = false

theorem Mutation.supply_apply {m : Mutation} (h : (Operation.write m).SparesBalances)
    (t : State) : (m.apply t).2.accounts.supply = t.accounts.supply := by
  cases m with
  | createAccount a => exact t.accounts.supply_create a
  | setNonce a nonce => exact t.accounts.supply_setNonce a nonce
  | setStorage a key value => exact t.accounts.supply_setStorage a key value
  | setBalance | credit | debit => cases h.2
  | snapshot | revertTo | commit => cases h.1

namespace Native

/-! ### The shipped precompiles -/

namespace TokenDuality

/-- No method of the precompile makes or destroys tokens. -/
theorem supply_of_effected {c : Config} {caller : Address} {block : Word} {readOnly : Bool}
    {as bs : Accounts} {call : TokenDualityCall} {output : Bytes}
    (h : Effected c caller block readOnly as call output bs) : bs.supply = as.supply := by
  refine kept_of_effected Accounts.supply (fun as a => as.supply_create a)
    (fun as key value => as.supply_setStorage address key value) (fun hdebit hcredit => ?_) h
  rw [Accounts.supply_of_credit? hcredit, Accounts.supply_of_debit? hdebit]

end TokenDuality

namespace Mint

/-- The tokens that a call makes if it succeeds. -/
def minted : NativeTokenCall → Nat
  | .mint _ amount => amount.toNat
  | .burn _ _ => 0

/-- The tokens that a call destroys if it succeeds. -/
def burned : NativeTokenCall → Nat
  | .mint _ _ => 0
  | .burn _ amount => amount.toNat

theorem supply_of_effected {call : NativeTokenCall} {as bs : Accounts}
    (h : Effected as call bs) : bs.supply + burned call = as.supply + minted call := by
  cases h with
  | minted hcredit =>
    rw [Accounts.supply_of_credit? hcredit, Accounts.supply_create]
    rfl
  | burned hdebit =>
    change _ + _ = as.supply
    rw [← as.supply_create]
    exact Accounts.supply_of_debit? hdebit

end Mint

/-! ### Call trees -/

namespace Config

variable {c : Config}

/-- What recorded calls have asked of the mint precompile, if there is one. -/
def mintAsked? (c : Config) (r : CallRecord) : Option NativeTokenCall :=
  c.mintAdmin.bind fun _ => Mint.asked? r

/-- The tokens made by calls that stand. -/
def minted (c : Config) (calls : List CallRecord) : Nat :=
  ((calls.filterMap c.mintAsked?).map Mint.minted).sum

/-- The tokens destroyed by calls that stand. -/
def burned (c : Config) (calls : List CallRecord) : Nat :=
  ((calls.filterMap c.mintAsked?).map Mint.burned).sum

theorem minted_append (c : Config) (calls later : List CallRecord) :
    c.minted (calls ++ later) = c.minted calls + c.minted later := by
  simp [minted]

theorem burned_append (c : Config) (calls later : List CallRecord) :
    c.burned (calls ++ later) = c.burned calls + c.burned later := by
  simp [burned]

/-- The supply changes by what the calls have minted and burned. -/
def Accounted (c : Config) (as : Accounts) (calls : List CallRecord) (bs : Accounts) : Prop :=
  bs.supply + c.burned calls = as.supply + c.minted calls

namespace Accounted

variable {as bs cs : Accounts} {calls calls' : List CallRecord}

theorem same (h : bs.supply = as.supply) : c.Accounted as [] bs := by
  rw [Accounted, h]
  rfl

theorem trans (h : c.Accounted as calls bs) (h' : c.Accounted bs calls' cs) :
    c.Accounted as (calls ++ calls') cs := by
  unfold Accounted at h h' ⊢
  rw [minted_append, burned_append]
  omega

/-- A call that asks nothing of the mint precompile counts for nothing. -/
theorem unasked {r : CallRecord} (hasked : c.mintAsked? r = none) (h : bs.supply = as.supply) :
    c.Accounted as [r] bs := by
  simp [Accounted, minted, burned, hasked, h]

theorem asked {r : CallRecord} {call : NativeTokenCall} (hasked : c.mintAsked? r = some call)
    (h : Mint.Effected as call bs) : c.Accounted as [r] bs := by
  simpa [Accounted, minted, burned, hasked] using Mint.supply_of_effected h

end Accounted

theorem mintAsked?_eq_none {r : CallRecord}
    (h : ∀ admin, c.mintAdmin = some admin → Mint.asked? r = none) : c.mintAsked? r = none := by
  unfold mintAsked?
  cases hadmin : c.mintAdmin with
  | none => rfl
  | some admin => exact h admin hadmin

/-- The routines of an installation among others that spare balances keep to the account of the
supply. -/
theorem chronicle_accounted {others : Registry}
    (hothers : others.Only fun _ o => o.SparesBalances) {s : Setting}
    (hactive : c.Governs others s.active) : s.Chronicle c.Accounted where
  refl as := .same rfl
  trans := .trans
  transfer htransfer := .same (Accounts.supply_of_transfer? htransfer)
  frameless r as hframeless :=
    .unasked (mintAsked?_eq_none fun _ _ => r.asked?_of_frameless hframeless) rfl
  routines := by
    intro a routine hroutine
    cases hactive.provides hothers hroutine with
    | mint haddress hadmin htext =>
      subst haddress htext
      refine .leaf (Mint.leaf_routine _) fun h frame input gas w output _ hok r htarget hinput
        hhandling => ?_
      obtain ⟨-, -, -, -, call, hdecode, as, heffected, hafter⟩ :=
        Mint.yields_routine.mp (Program.yields_of_ending hok)
      rw [hafter, World.accounts_holding]
      rw [← hinput] at hdecode
      refine .asked ?_ heffected
      rw [mintAsked?, hadmin]
      exact CallRecord.asked?_of_entered htarget hhandling hdecode
    | @tokenDuality duality haddress hduality htext =>
      subst haddress htext
      refine .leaf (TokenDuality.leaf_routine _) fun h frame input gas w output _ hok r htarget _
        _ => ?_
      obtain ⟨call, -, as, heffected, -, hafter⟩ :=
        TokenDuality.yields_routine.mp (Program.yields_of_ending hok)
      rw [hafter, World.accounts_holding]
      refine .unasked (mintAsked?_eq_none fun _ _ => CallRecord.asked?_of_target_ne ?_)
        (TokenDuality.supply_of_effected heffected)
      rw [htarget]
      decide
    | other hmint hduality htext =>
      refine .unnoticed (fun input => (htext input).mono fun o ho => ?_) fun r as htarget => ?_
      · cases o with
        | write m => exact ⟨ho.1, fun t => .same (Mutation.supply_apply ho t)⟩
        | observe | chain | useGas | read | invalidate | log => trivial
      · refine .unasked (mintAsked?_eq_none fun admin hadmin => ?_) rfl
        exact CallRecord.asked?_of_target_ne (htarget ▸ hmint admin hadmin)

/-- One step of an engine keeps to the account of the supply. -/
theorem accounted_step {others : Registry} (hothers : others.Only fun _ o => o.SparesBalances)
    {e : Engine} (hactive : c.Governs others e.setting.active) (s : Engine.Step) :
    c.Accounted e.world.state.accounts (e.stands s) (e.step s).world.state.accounts := by
  cases hmade : e.made? s with
  | none =>
    rw [Engine.stands, hmade]
    cases s with
    | call | transact => cases hmade
    | enterBlock | enterContext => exact .same rfl
  | some d =>
    rw [Engine.stands, hmade]
    obtain ⟨-, hstate, -⟩ := Engine.dispatch_of_made? hmade
    have htold : d.Told c.Accounted e.world.state.accounts :=
      Engine.told_of_made? (fun setting hsetting _ =>
        chronicle_accounted hothers (hsetting ▸ hactive)) hmade
    rw [hstate]
    exact htold.ended

end Config

/-- Over any calls of any kind, the supply grows by the amounts of the mint calls that stand and
shrinks by those of the burn calls that stand. Whatever else is done, sent or transferred, and
whatever fails, contributes nothing. -/
theorem supply_conserved (c : Config) (others : Registry)
    (hothers : others.Only fun _ o => o.SparesBalances) (e : Engine)
    (hactive : c.Governs others e.setting.active) (steps : List Engine.Step) :
    (e.run steps).world.state.accounts.supply + c.burned ((e.standing steps).map (·.2)) =
      e.world.state.accounts.supply + c.minted ((e.standing steps).map (·.2)) := by
  suffices h : ∀ steps e, c.Governs others e.setting.active →
      c.Accounted e.world.state.accounts ((Engine.standing e steps).map (·.2))
        (Engine.run e steps).world.state.accounts from h steps e hactive
  intro steps
  induction steps with
  | nil =>
    intro e _
    exact .same rfl
  | cons s steps ih =>
    intro e hactive
    have hstep := Config.accounted_step hothers hactive s
    rw [← Engine.active_step e s] at hactive
    have hrest := ih (e.step s) hactive
    rw [Engine.calls_standing_cons]
    exact hstep.trans hrest

namespace Teller

def config : Config :=
  { mintAdmin := some 0xa0, tokenDuality := some { admin := 0xa0 } }

def order (call : NativeTokenCall) : NestedCall :=
  { target := Mint.address
    input := call.encode
    gas := 20000
    value := 0
    options := [.callerProxying] }

/-- Mints, and fails. -/
def careless (_ : Bytes) : Program Bytes := do
  discard <| Program.callOut (order (.mint 0xa1 7))
  .fail .headerUnavailable

/-- Mints and burns, and sends value to one who fails, all in the name of its caller. -/
def teller (_ : Bytes) : Program Bytes := do
  discard <| Program.callOut (order (.mint 0xa1 50))
  discard <| Program.callOut (order (.burn 0xa1 20))
  discard <| Program.callOut
    { target := 0xb1, input := [], gas := 100000, value := 3, options := [.callerProxying] }
  pure []

def others : Registry :=
  WordMap.ofList [(0xb0, .stateful teller), (0xb1, .stateful careless)]

def engine : Engine :=
  Engine.create { accounts := (∅ : Accounts).setBalance 0xa0 100 } (config.install others)

/-- The teller is called with value, in an account of its own and in that of its caller. -/
def steps : List Engine.Step :=
  [.transact 0xa0 0xb0 [] 1000000 5,
    .call
      { callType := .callCode, caller := .account 0xa0, target := 0xb0, input := [],
        gas := 1000000, value := 5 }]

theorem others_spare : others.Only fun _ o => o.SparesBalances := by
  refine Registry.Only.insert (Registry.only_empty.insert fun _ => ?teller) fun _ => ?careless
  case teller => exact fun _ _ _ => trivial
  case careless => exact fun _ => trivial

/-- Twice 50 are minted and 20 burned; what was minted in the failed calls is gone. -/
theorem engine_supply_conserved :
    (engine.run steps).world.state.accounts.supply + 40 = 100 + 100 := by
  have hconserved := supply_conserved config others others_spare engine
    (config.governs_activate others _ _) steps
  have hbefore : engine.world.state.accounts.supply = 100 := by decide +kernel
  have hminted : config.minted ((engine.standing steps).map (·.2)) = 100 := by decide +kernel
  have hburned : config.burned ((engine.standing steps).map (·.2)) = 40 := by decide +kernel
  rw [hbefore, hminted, hburned] at hconserved
  exact hconserved

end Teller

end Native

end PrecompileHost
