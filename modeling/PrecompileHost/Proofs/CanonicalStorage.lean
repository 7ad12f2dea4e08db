import PrecompileHost.Proofs.NestedSnapshots
import PrecompileHost.Proofs.Throughout

/-!
Storage without zeros. A slot that is bound to zero reads like one that is not bound, so accounts
could differ in what nobody can read. Writes bind no slot to zero, and a snapshot puts aside what
writes have left, so going back does not bring a zero in either: unless an account is inserted with
one, there is none at any time. Accounts are then determined by what can be read of them, and a
write is undone by writing what was read before, save that an account it has made stays.
-/

namespace PrecompileHost

/-! ### Slots of one account -/

namespace Account

variable {account other : Account}

/-- What a slot reads as. -/
def slot (account : Account) (key : Word) : Word :=
  (account.storage.get? key).getD 0

def setSlot (account : Account) (key value : Word) : Account :=
  { account with
    storage := if value = 0 then account.storage.erase key else account.storage.insert key value }

/-- No slot is bound to zero. -/
def Canonical (account : Account) : Prop :=
  ∀ key, account.storage.get? key ≠ some 0

/-- Decided by the bound slots, as all slots are too many. -/
instance (account : Account) : Decidable account.Canonical :=
  have : Decidable (∀ key ∈ account.storage.keys, account.storage.get? key ≠ some 0) :=
    List.decidableBAll _ _
  decidable_of_iff (∀ key ∈ account.storage.keys, account.storage.get? key ≠ some 0)
    ⟨fun h key hzero => h key ((account.storage.mem_keys_iff key).mpr ⟨0, hzero⟩) hzero,
      fun h key _ => h key⟩

theorem slot_setSlot (account : Account) (key value k : Word) :
    (account.setSlot key value).slot k = if k = key then value else account.slot k := by
  unfold slot setSlot
  dsimp only
  by_cases hvalue : value = 0
  · subst hvalue
    rw [if_pos rfl, WordMap.get?_erase]
    split <;> rfl
  · rw [if_neg hvalue, WordMap.get?_insert]
    split <;> rfl

theorem canonical_empty : Canonical {} := fun _ h => nomatch h

namespace Canonical

theorem setSlot (h : account.Canonical) (key value : Word) :
    (account.setSlot key value).Canonical := by
  intro k
  unfold Account.setSlot
  dsimp only
  by_cases hvalue : value = 0
  · rw [if_pos hvalue, WordMap.get?_erase]
    split
    · exact nofun
    · exact h k
  · rw [if_neg hvalue, WordMap.get?_insert]
    split
    · exact fun hzero => hvalue (Option.some.inj hzero)
    · exact h k

/-- Without zeros, slots that read alike are bound alike. -/
theorem get?_eq (h : account.Canonical) (hother : other.Canonical) {key : Word}
    (hread : account.slot key = other.slot key) :
    account.storage.get? key = other.storage.get? key := by
  have hne := h key
  have hne' := hother key
  unfold slot at hread
  cases hbound : account.storage.get? key with
  | none =>
    cases hbound' : other.storage.get? key with
    | none => rfl
    | some value =>
      rw [hbound, hbound'] at hread
      exact absurd (hbound'.trans (congrArg some hread.symm)) hne'
  | some value =>
    cases hbound' : other.storage.get? key with
    | none =>
      rw [hbound, hbound'] at hread
      exact absurd (hbound.trans (congrArg some hread)) hne
    | some value' =>
      rw [hbound, hbound'] at hread
      exact congrArg some hread

theorem ext (h : account.Canonical) (hother : other.Canonical)
    (hbalance : account.balance = other.balance) (hnonce : account.nonce = other.nonce)
    (hread : ∀ key, account.slot key = other.slot key) : account = other := by
  have hstorage : account.storage = other.storage :=
    WordMap.ext_get? fun key => h.get?_eq hother (hread key)
  cases account
  cases other
  simp_all only

/-- A slot is as before once it reads as before. -/
theorem setSlot_slot (h : account.Canonical) (key value : Word) :
    (account.setSlot key value).setSlot key (account.slot key) = account := by
  refine ((h.setSlot key value).setSlot key _).ext h rfl rfl fun k => ?_
  rw [slot_setSlot, slot_setSlot]
  split
  · rename_i hk
    rw [hk]
  · rfl

end Canonical

end Account

/-! ### Accounts -/

namespace Accounts

variable {as bs : Accounts} {a : Address}

/-- No account has a slot that is bound to zero. -/
def Canonical (as : Accounts) : Prop :=
  ∀ a account, as.get? a = some account → account.Canonical

theorem canonical_empty : Canonical ∅ := fun _ _ h => nomatch h

namespace Canonical

theorem account (h : as.Canonical) (a : Address) : (as.account a).Canonical := by
  unfold Accounts.account
  cases hbound : as.get? a with
  | none => exact Account.canonical_empty
  | some account => exact h a account hbound

theorem insert (h : as.Canonical) {account : Account} (haccount : account.Canonical) :
    Canonical (as.insert a account) := by
  intro b bound hbound
  rw [WordMap.get?_insert] at hbound
  split at hbound
  · cases hbound
    exact haccount
  · exact h b bound hbound

theorem setBalance (h : as.Canonical) (balance : Word) : (as.setBalance a balance).Canonical :=
  h.insert (h.account a)

/-- What is read of accounts without zeros tells them apart. -/
theorem eq_iff (has : as.Canonical) (hbs : bs.Canonical) :
    as = bs ↔ ∀ q : Query, q.answer as = q.answer bs := by
  constructor
  · intro h q
    rw [h]
  · intro h
    refine WordMap.ext_get? fun a => ?_
    have haccount : as.account a = bs.account a :=
      (has.account a).ext (hbs.account a) (h (.balance a)) (h (.nonce a))
        fun key => h (.storage a key)
    -- accounts that are not there read like empty ones
    have hcontains : (as.get? a).isSome = (bs.get? a).isSome := h (.accountExists a)
    unfold Accounts.account at haccount
    cases hbound : as.get? a with
    | none =>
      cases hbound' : bs.get? a with
      | none => rfl
      | some account =>
        rw [hbound, hbound'] at hcontains
        cases hcontains
    | some account =>
      cases hbound' : bs.get? a with
      | none =>
        rw [hbound, hbound'] at hcontains
        cases hcontains
      | some account' =>
        rw [hbound, hbound'] at haccount
        exact congrArg some haccount

end Canonical

/-! ### Putting accounts back -/

theorem update_update (as : Accounts) (a : Address) (f g : Account → Account) :
    (as.update a f).update a g = as.update a fun account => g (f account) := by
  refine WordMap.ext_get? fun b => ?_
  rw [update, account_update, if_pos rfl, update, update, WordMap.get?_insert,
    WordMap.get?_insert, WordMap.get?_insert]
  split <;> rfl

/-- An account that is put back as it reads is as before exactly if it was there. -/
theorem update_eq_self_iff {f : Account → Account} (hf : f (as.account a) = as.account a) :
    as.update a f = as ↔ as.contains a = true := by
  constructor
  · intro h
    rw [← h, WordMap.contains, update, WordMap.get?_insert_self]
    rfl
  · intro h
    have hcreate := create_of_contains h
    unfold create update at hcreate
    rwa [update, hf]

theorem update_update_eq_self_iff {f g : Account → Account}
    (h : g (f (as.account a)) = as.account a) :
    (as.update a f).update a g = as ↔ as.contains a = true := by
  rw [update_update]
  exact update_eq_self_iff h

theorem setBalance_eq_self_iff : as.setBalance a (as.balance a) = as ↔ as.contains a = true :=
  update_eq_self_iff rfl

theorem setBalance_setBalance_eq_self_iff (balance : Word) :
    (as.setBalance a balance).setBalance a (as.balance a) = as ↔ as.contains a = true :=
  update_update_eq_self_iff rfl

theorem setNonce_setNonce_eq_self_iff (nonce : UInt64) :
    (as.setNonce a nonce).setNonce a (as.nonce a) = as ↔ as.contains a = true :=
  update_update_eq_self_iff rfl

theorem Canonical.setStorage_setStorage_eq_self_iff (h : as.Canonical) (key value : Word) :
    (as.setStorage a key value).setStorage a key (as.storage a key) = as ↔
      as.contains a = true :=
  update_update_eq_self_iff ((h.account a).setSlot_slot key value)

end Accounts

/-- `m.WritesBack as a back`: the one writes a value at `a`, and the other one what `as` holds in
its place. -/
inductive Mutation.WritesBack (as : Accounts) (a : Address) : Mutation → Mutation → Prop
  | balance (balance : Word) :
      WritesBack as a (.setBalance a balance) (.setBalance a (as.balance a))
  | credit (amount : Word) : WritesBack as a (.credit a amount) (.setBalance a (as.balance a))
  | debit (amount : Word) : WritesBack as a (.debit a amount) (.setBalance a (as.balance a))
  | nonce (nonce : UInt64) : WritesBack as a (.setNonce a nonce) (.setNonce a (as.nonce a))
  | storage (key value : Word) :
      WritesBack as a (.setStorage a key value) (.setStorage a key (as.storage a key))

namespace State

variable {t : State}

/-! ### States -/

/-- No zeros, neither in the accounts nor in those that snapshots have put aside. -/
structure Canonical (t : State) : Prop where
  accounts : t.accounts.Canonical
  snapshots : ∀ as ∈ t.snapshots, as.Canonical

theorem canonical_empty : Canonical {} :=
  ⟨Accounts.canonical_empty, fun _ h => nomatch h⟩

/-- `t.SetsBalance a u`: from `t` to `u` at most the balance at `a` has been written. -/
inductive SetsBalance (t : State) (a : Address) : State → Prop
  | unset : SetsBalance t a t
  | set (balance : Word) : SetsBalance t a { t with accounts := t.accounts.setBalance a balance }

/-- Arithmetic that is possible ends in a balance. -/
theorem setsBalance_perform? (t : State) (a : Address) (balance? : Option Word) :
    t.SetsBalance a (Mutation.perform? t (balance?.map (t.accounts.setBalance a))).2 := by
  cases balance? with
  | none => exact .unset
  | some balance => exact .set balance

namespace Canonical

theorem of_setsBalance (h : t.Canonical) {a : Address} {u : State} (hu : t.SetsBalance a u) :
    u.Canonical := by
  cases hu with
  | unset => exact h
  | set balance => exact ⟨h.accounts.setBalance balance, h.snapshots⟩

theorem revertTo (h : t.Canonical) (id : Nat) : (t.revertTo id).Canonical := by
  unfold State.revertTo
  split
  · rename_i as hsnapshot
    exact ⟨h.snapshots as (List.mem_of_getElem? hsnapshot),
      fun bs hbs => h.snapshots bs (List.mem_of_mem_take hbs)⟩
  · exact h

/-- All accounts at hand are free of zeros. -/
theorem of_mem (h : t.Canonical) {as : Accounts} (has : as ∈ t.accounts :: t.snapshots) :
    as.Canonical := by
  rcases List.mem_cons.mp has with rfl | hsnapshot
  · exact h.accounts
  · exact h.snapshots as hsnapshot

/-- No write binds a slot to zero, in the accounts or in what is put aside. -/
theorem keep : Mutation.Keep Canonical := by
  intro m t h
  cases m with
  | createAccount a => exact ⟨h.accounts.insert (h.accounts.account a), h.snapshots⟩
  | setBalance a balance => exact ⟨h.accounts.setBalance balance, h.snapshots⟩
  | setNonce a nonce => exact ⟨h.accounts.insert (h.accounts.account a), h.snapshots⟩
  | setStorage a key value =>
    exact ⟨h.accounts.insert ((h.accounts.account a).setSlot key value), h.snapshots⟩
  | credit a amount | debit a amount => exact h.of_setsBalance (t.setsBalance_perform? a _)
  | snapshot =>
    -- what is put aside last are the accounts at hand
    refine ⟨h.accounts, fun as has => ?_⟩
    rcases List.mem_append.mp has with hsnapshot | hlast
    · exact h.snapshots as hsnapshot
    · rw [List.mem_singleton.mp hlast]
      exact h.accounts
  | revertTo id => exact h.revertTo id
  | commit id => exact ⟨h.accounts, fun as has => h.snapshots as (List.mem_of_mem_take has)⟩

end Canonical

/-- The operation inserts no account with a zero. -/
def Step.Canonical : Step → Prop
  | .write _ => True
  | .insert _ account => account.Canonical

instance : (step : Step) → Decidable step.Canonical
  | .write _ => isTrue trivial
  | .insert _ account => inferInstanceAs (Decidable account.Canonical)

/-- The states that operations and engines make from the empty one, as long as no account is
inserted with a zero. -/
inductive Reached : State → Prop
  | empty : Reached {}
  | step {t : State} (h : Reached t) {step : Step} (hstep : step.Canonical) : Reached (t.step step)
  | ran {e : Engine} (h : Reached e.world.state) (s : Engine.Step) :
      Reached (e.step s).world.state
  | alone {e : Engine} (h : Reached e.world.state) (p : Precompile) (r : Request) :
      Reached (e.runAlone p r).2.world.state

theorem Reached.run (h : Reached t) {steps : List Step} (hsteps : ∀ step ∈ steps, step.Canonical) :
    Reached (t.run steps) := by
  induction steps generalizing t with
  | nil => exact h
  | cons step steps ih =>
    obtain ⟨hfirst, hrest⟩ := List.forall_mem_cons.mp hsteps
    exact ih (h.step hfirst) hrest

theorem Canonical.step (h : t.Canonical) {step : Step} (hstep : step.Canonical) :
    (t.step step).Canonical := by
  cases step with
  | write m => exact Canonical.keep m t h
  | insert a account => exact ⟨h.accounts.insert hstep, h.snapshots⟩

theorem Reached.canonical (h : Reached t) : t.Canonical := by
  induction h with
  | empty => exact canonical_empty
  | step _ hstep ih => exact ih.step hstep
  | ran _ s ih => exact Canonical.keep.engine_step s ih
  | alone _ p r ih => exact (Canonical.keep.throughout_runAlone p r ih).ended

/-! ### Writing back -/

theorem eq_iff_of_snapshots {u : State} (h : u.snapshots = t.snapshots) :
    u = t ↔ u.accounts = t.accounts := by
  constructor
  · intro heq
    rw [heq]
  · intro haccounts
    cases u
    cases t
    simp_all only

theorem SetsBalance.step_eq_self_iff {u : State} {a : Address} (h : t.SetsBalance a u) :
    u.step (.write (.setBalance a (t.accounts.balance a))) = t ↔
      t.accounts.contains a = true := by
  cases h with
  | unset =>
    rw [eq_iff_of_snapshots (by rfl)]
    exact Accounts.setBalance_eq_self_iff
  | set balance =>
    rw [eq_iff_of_snapshots (by rfl)]
    exact Accounts.setBalance_setBalance_eq_self_iff balance

/-- Writing a value and then the one before it changes nothing, unless it has made an account. -/
theorem Canonical.step_step_eq_self_iff (h : t.Canonical) {a : Address} {m back : Mutation}
    (hback : m.WritesBack t.accounts a back) :
    (t.step (.write m)).step (.write back) = t ↔ t.accounts.contains a = true := by
  cases hback with
  | balance balance => exact (SetsBalance.set balance).step_eq_self_iff
  | credit amount | debit amount => exact (t.setsBalance_perform? a _).step_eq_self_iff
  | nonce nonce =>
    rw [eq_iff_of_snapshots (by rfl)]
    exact Accounts.setNonce_setNonce_eq_self_iff nonce
  | storage key value =>
    rw [eq_iff_of_snapshots (by rfl)]
    exact h.accounts.setStorage_setStorage_eq_self_iff key value

/-- Slots are never bound to zero, at no moment of anything that engines do, nor in what snapshots
put aside. So accounts that read alike are equal, and a write is undone by writing back what was
read, zero included, exactly where an account was. -/
theorem storage_canonical :
    (∀ t, Reached t → t.Canonical) ∧
    (∀ e : Engine, Reached e.world.state →
      (∀ s d, e.made? s = some d → d.Throughout Canonical e.world.state) ∧
      ∀ p r, (e.runAlone p r).2.Throughout Canonical e.world.state) ∧
    (∀ t u, Reached t → Reached u →
      ∀ as ∈ t.accounts :: t.snapshots, ∀ bs ∈ u.accounts :: u.snapshots,
        (as = bs ↔ ∀ q : Query, q.answer as = q.answer bs)) ∧
    ∀ t, Reached t → ∀ a m back, m.WritesBack t.accounts a back →
      ((t.step (.write m)).step (.write back) = t ↔ t.accounts.contains a = true) := by
  refine ⟨fun t ht => ht.canonical, fun e he => ⟨fun s d hmade => ?_, fun p r => ?_⟩,
    fun t u ht hu as has bs hbs => ?_, fun t ht a m back hback => ?_⟩
  · exact Canonical.keep.throughout_made? hmade he.canonical
  · exact Canonical.keep.throughout_runAlone p r he.canonical
  · exact (ht.canonical.of_mem has).eq_iff (hu.canonical.of_mem hbs)
  · exact ht.canonical.step_step_eq_self_iff hback

namespace Erasure

/-- An account with a slot, which is cleared once a snapshot has been taken. -/
def steps : List Step :=
  [.insert 0xa1 { balance := 10, storage := (∅ : WordMap 256 Word).insert 1 7 },
    .write .snapshot, .write (.setStorage 0xa1 1 0)]

def state : State :=
  State.run {} steps

/-- Clears slots under a snapshot of its own, goes back to the one from before the call, ignores a
failure, and gives up. -/
def eraser (_ : Bytes) : Program Bytes := do
  discard <| Program.write .snapshot
  Program.write (.setStorage 0xa0 2 5)
  Program.write (.setStorage 0xa0 2 0)
  Program.write (.revertTo 0)
  discard <| Program.callOut { target := 0xb0, input := [], gas := 10, value := 0 }
  Program.write (.setStorage 0xb0 3 0)
  .abort "fault"

def faulty (_ : Bytes) : Program Bytes := do
  Program.write (.setStorage 0xb0 3 0)
  .fail .headerUnavailable

def registered : Registry :=
  WordMap.ofList [(0xa0, .stateful eraser), (0xb0, .stateful faulty)]

def engine : Engine :=
  Engine.create state registered

def erase : Engine.Step :=
  .transact 0xa1 0xa0 [] 100 0

/-- The same balance, and never a slot. -/
def blank : State :=
  State.step {} (.write (.setBalance 0xa1 10))

theorem reached_state : Reached state := by
  have hsteps : ∀ step ∈ steps, step.Canonical := by decide +kernel
  exact Reached.empty.run hsteps

/-- The slot is bound again after the call, and no slot is bound to zero at any moment of it. An
account whose slot is cleared reads like one that never had it. Writing to the slot is undone by
clearing it, but not where there was no account. -/
theorem state_storage_canonical :
    state.Canonical ∧
      (∀ d, engine.made? erase = some d → d.Throughout Canonical state) ∧
      (engine.step erase).world.state.Canonical ∧
      (engine.step erase).world.state.accounts.storage 0xa1 1 = 7 ∧
      (∀ q : Query, q.answer state.accounts = q.answer blank.accounts) ∧
      (state.step (.write (.setStorage 0xa1 1 9))).step (.write (.setStorage 0xa1 1 0)) = state ∧
      (state.step (.write (.setStorage 0xc1 1 9))).step (.write (.setStorage 0xc1 1 0)) ≠
        state := by
  obtain ⟨hcanonical, hengine, hread, hback⟩ := storage_canonical
  have hran : Reached (engine.step erase).world.state := .ran reached_state erase
  have hblank : Reached blank := Reached.empty.step trivial
  refine ⟨hcanonical state reached_state, (hengine engine reached_state).1 erase,
    hcanonical _ hran, by decide +kernel, ?_, ?_, ?_⟩
  · exact (hread state blank reached_state hblank _ List.mem_cons_self _ List.mem_cons_self).mp
      (by decide +kernel)
  · exact (hback state reached_state 0xa1 _ _ (.storage 1 9)).mpr (by decide +kernel)
  · exact mt (hback state reached_state 0xc1 _ _ (.storage 1 9)).mp (by decide +kernel)

end Erasure

end State

end PrecompileHost
