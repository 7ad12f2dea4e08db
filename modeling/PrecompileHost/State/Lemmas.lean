import PrecompileHost.State.Access
import PrecompileHost.WordMap.Lemmas

/-!
Reads after writes, and what going back to a snapshot or releasing it comes to: whatever has been
put aside since, the state is as it was when the snapshot was taken, or keeps its accounts.
-/

namespace PrecompileHost

namespace Accounts

variable (as : Accounts) (a b : Address)

theorem account_update (f : Account → Account) :
    (as.update a f).account b = if b = a then f (as.account a) else as.account b := by
  unfold account update
  rw [WordMap.get?_insert]
  split <;> rfl

@[simp] theorem account_create : (as.create a).account b = as.account b := by
  unfold create
  rw [account_update]
  split
  · rename_i h
    rw [h]
    rfl
  · rfl

@[simp] theorem balance_create : (as.create a).balance b = as.balance b := by
  simp [balance]

@[simp] theorem nonce_create : (as.create a).nonce b = as.nonce b := by
  simp [nonce]

@[simp] theorem storage_create (key : Word) :
    (as.create a).storage b key = as.storage b key := by
  simp [storage]

theorem get?_create :
    (as.create a).get? b = if b = a then some (as.account a) else as.get? b :=
  WordMap.get?_insert as a b _

theorem get?_setBalance (v : Word) :
    (as.setBalance a v).get? b =
      if b = a then some { as.account a with balance := v } else as.get? b :=
  WordMap.get?_insert as a b _

theorem balance_setBalance (v : Word) :
    (as.setBalance a v).balance b = if b = a then v else as.balance b := by
  unfold balance setBalance
  rw [account_update]
  split <;> rfl

@[simp] theorem nonce_setBalance (v : Word) : (as.setBalance a v).nonce b = as.nonce b := by
  unfold nonce setBalance
  rw [account_update]
  split
  · rename_i h
    rw [h]
  · rfl

@[simp] theorem storage_setBalance (v key : Word) :
    (as.setBalance a v).storage b key = as.storage b key := by
  unfold storage setBalance
  rw [account_update]
  split
  · rename_i h
    rw [h]
  · rfl

@[simp] theorem storage_setNonce (nonce : UInt64) (key : Word) :
    (as.setNonce a nonce).storage b key = as.storage b key := by
  unfold storage setNonce
  rw [account_update]
  split
  · rename_i h
    rw [h]
  · rfl

@[simp] theorem balance_setStorage (key v : Word) :
    (as.setStorage a key v).balance b = as.balance b := by
  unfold balance setStorage
  rw [account_update]
  split
  · rename_i h
    rw [h]
  · rfl

@[simp] theorem nonce_setStorage (key v : Word) :
    (as.setStorage a key v).nonce b = as.nonce b := by
  unfold nonce setStorage
  rw [account_update]
  split
  · rename_i h
    rw [h]
  · rfl

/-- A slot reads as it was written last, zero included. -/
theorem storage_setStorage (key v slot : Word) :
    (as.setStorage a key v).storage b slot =
      if b = a ∧ slot = key then v else as.storage b slot := by
  unfold storage setStorage
  rw [account_update]
  by_cases hb : b = a
  · subst hb
    rw [if_pos rfl]
    by_cases hv : v = 0
    · subst hv
      simp only [if_pos, WordMap.get?_erase, true_and]
      split <;> rfl
    · simp only [if_neg hv, WordMap.get?_insert, true_and]
      split <;> rfl
  · simp [hb]

theorem credit?_eq_some_iff {amount : Word} {as' : Accounts} :
    as.credit? a amount = some as' ↔
      (as.balance a).toNat + amount.toNat < Word.size ∧
        as' = as.setBalance a (as.balance a + amount) := by
  unfold credit? Word.add?
  split
  · rename_i h
    exact ⟨fun heq => ⟨h, (Option.some.inj heq).symm⟩, fun heq => congrArg some heq.2.symm⟩
  · rename_i h
    exact ⟨fun heq => (nomatch heq), fun heq => absurd heq.1 h⟩

theorem debit?_eq_some_iff {amount : Word} {as' : Accounts} :
    as.debit? a amount = some as' ↔
      amount ≤ as.balance a ∧ as' = as.setBalance a (as.balance a - amount) := by
  unfold debit? Word.sub?
  split
  · rename_i h
    exact ⟨fun heq => ⟨BitVec.le_def.mpr h, (Option.some.inj heq).symm⟩,
      fun heq => congrArg some heq.2.symm⟩
  · rename_i h
    exact ⟨fun heq => (nomatch heq), fun heq => absurd (BitVec.le_def.mp heq.1) h⟩

theorem credit?_eq_none_iff {amount : Word} :
    as.credit? a amount = none ↔ Word.size ≤ (as.balance a).toNat + amount.toNat := by
  rw [credit?, Option.map_eq_none_iff, Word.add?_eq_none_iff]

theorem debit?_eq_none_iff {amount : Word} :
    as.debit? a amount = none ↔ as.balance a < amount := by
  rw [debit?, Option.map_eq_none_iff, Word.sub?_eq_none_iff, BitVec.lt_def]

variable {as a b}

theorem account_of_get? {account : Account} (h : as.get? a = some account) :
    as.account a = account := by
  rw [Accounts.account, h]
  rfl

theorem balance_of_get? {account : Account} (h : as.get? a = some account) :
    as.balance a = account.balance :=
  congrArg Account.balance (account_of_get? h)

theorem contains_create : (as.create a).contains b = true ↔ b = a ∨ as.contains b = true := by
  rw [WordMap.contains, get?_create]
  split
  · exact iff_of_true rfl (.inl ‹_›)
  · exact (or_iff_right ‹_›).symm

theorem contains_setStorage {key v : Word} :
    (as.setStorage a key v).contains b = true ↔ b = a ∨ as.contains b = true := by
  rw [WordMap.contains, setStorage, update, WordMap.get?_insert]
  split
  · exact iff_of_true rfl (.inl ‹_›)
  · exact (or_iff_right ‹_›).symm

theorem account_of_get?_eq {bs : Accounts} (h : bs.get? a = as.get? a) :
    bs.account a = as.account a := by
  rw [account, account, h]

theorem create_of_contains (h : as.contains a = true) : as.create a = as := by
  obtain ⟨bound, hbound⟩ := Option.isSome_iff_exists.mp h
  refine WordMap.ext_get? fun b => ?_
  rw [get?_create]
  split
  · rename_i hb
    rw [hb, account, hbound]
    rfl
  · rfl

/-- Moving balances leaves storage alone. -/
theorem storage_of_credit? {amount : Word} {as' : Accounts} (h : as.credit? a amount = some as')
    (key : Word) : as'.storage b key = as.storage b key := by
  rw [((as.credit?_eq_some_iff a).mp h).2, storage_setBalance]

theorem storage_of_debit? {amount : Word} {as' : Accounts} (h : as.debit? a amount = some as')
    (key : Word) : as'.storage b key = as.storage b key := by
  rw [((as.debit?_eq_some_iff a).mp h).2, storage_setBalance]

theorem storage_of_transfer? {source target : Address} {value : Word} {as' : Accounts}
    (h : as.transfer? source target value = some as') (key : Word) :
    as'.storage b key = as.storage b key := by
  unfold transfer? at h
  split at h
  · cases h
    rfl
  · obtain ⟨debited, hdebit, hcredit⟩ := Option.bind_eq_some_iff.mp h
    rw [storage_of_credit? hcredit, storage_of_debit? hdebit]

/-- Moving balances leaves nonces alone. -/
theorem nonce_of_credit? {amount : Word} {as' : Accounts} (h : as.credit? a amount = some as') :
    as'.nonce b = as.nonce b := by
  rw [((as.credit?_eq_some_iff a).mp h).2, nonce_setBalance]

theorem nonce_of_debit? {amount : Word} {as' : Accounts} (h : as.debit? a amount = some as') :
    as'.nonce b = as.nonce b := by
  rw [((as.debit?_eq_some_iff a).mp h).2, nonce_setBalance]

theorem nonce_of_transfer? {source target : Address} {value : Word} {as' : Accounts}
    (h : as.transfer? source target value = some as') : as'.nonce b = as.nonce b := by
  unfold transfer? at h
  split at h
  · cases h
    rfl
  · obtain ⟨debited, hdebit, hcredit⟩ := Option.bind_eq_some_iff.mp h
    rw [nonce_of_credit? hcredit, nonce_of_debit? hdebit]

/-- Nobody loses by a credit. -/
theorem balance_le_of_credit? {amount : Word} {as' : Accounts}
    (h : as.credit? a amount = some as') : as.balance b ≤ as'.balance b := by
  obtain ⟨hfits, rfl⟩ := (as.credit?_eq_some_iff a).mp h
  rw [balance_setBalance]
  split
  · rename_i hb
    rw [hb, BitVec.le_def, BitVec.toNat_add, Nat.mod_eq_of_lt hfits]
    exact Nat.le_add_right _ _
  · exact BitVec.le_refl _

/-- By a debit only the account loses that is debited. -/
theorem balance_of_debit? {amount : Word} {as' : Accounts} (h : as.debit? a amount = some as')
    (hb : b ≠ a) : as'.balance b = as.balance b := by
  rw [((as.debit?_eq_some_iff a).mp h).2, balance_setBalance, if_neg hb]

/-- What leaves an account in a transfer was sent from there. -/
theorem source_of_transfer? {source target : Address} {value : Word} {as' : Accounts}
    (h : as.transfer? source target value = some as') (hless : as'.balance b < as.balance b) :
    value ≠ 0 ∧ source = b := by
  unfold transfer? at h
  split at h
  · cases h
    exact absurd hless (BitVec.lt_irrefl _)
  · rename_i hvalue
    obtain ⟨debited, hdebit, hcredit⟩ := Option.bind_eq_some_iff.mp h
    refine ⟨hvalue, Decidable.byContradiction fun hne => ?_⟩
    rw [← balance_of_debit? hdebit (Ne.symm hne)] at hless
    exact BitVec.not_lt.mpr (balance_le_of_credit? hcredit) hless

/-- What is sent to oneself is there again. -/
theorem eq_of_transfer?_self {value : Word} {as' : Accounts}
    (h : as.transfer? a a value = some as') : as' = as := by
  unfold transfer? at h
  split at h
  · cases h
    rfl
  · rename_i hvalue
    obtain ⟨debited, hdebit, hcredit⟩ := Option.bind_eq_some_iff.mp h
    obtain ⟨hle, rfl⟩ := (as.debit?_eq_some_iff a).mp hdebit
    obtain ⟨-, rfl⟩ := (credit?_eq_some_iff _ a).mp hcredit
    rw [balance_setBalance, if_pos rfl, BitVec.sub_add_cancel]
    refine WordMap.ext_get? fun b => ?_
    unfold setBalance update
    rw [WordMap.get?_insert, WordMap.get?_insert]
    split
    · rename_i hb
      subst hb
      -- an account that can pay is there
      cases hbound : as.get? b with
      | none => simp_all [balance, account]
      | some bound => simp [account, balance, hbound]
    · rfl

/-- A transfer changes something unless nothing is sent or it is sent to oneself. -/
theorem eq_of_transfer?_iff {source target : Address} {value : Word} {as' : Accounts}
    (h : as.transfer? source target value = some as') :
    as' = as ↔ value = 0 ∨ source = target := by
  constructor
  · intro hsame
    refine Classical.or_iff_not_imp_left.mpr fun hvalue => Decidable.byContradiction fun hne => ?_
    unfold transfer? at h
    rw [if_neg hvalue] at h
    obtain ⟨debited, hdebit, hcredit⟩ := Option.bind_eq_some_iff.mp h
    obtain ⟨hle, rfl⟩ := (as.debit?_eq_some_iff source).mp hdebit
    have hsource : as'.balance source = as.balance source - value := by
      rw [((credit?_eq_some_iff _ target).mp hcredit).2, balance_setBalance, if_neg hne,
        balance_setBalance, if_pos rfl]
    rw [hsame] at hsource
    bv_omega
  · rintro (rfl | rfl)
    · cases h
      rfl
    · exact eq_of_transfer?_self h

end Accounts

namespace State

variable (s : State)

@[simp] theorem accounts_snapshot : s.snapshot.2.accounts = s.accounts := rfl

@[simp] theorem snapshots_snapshot :
    s.snapshot.2.snapshots = s.snapshots ++ [s.accounts] := rfl

/-- A state that has put aside more since a snapshot of `s` goes back to `s`. -/
theorem revertTo_eq_of_snapshots {t : State} {later : List Accounts}
    (h : t.snapshots = s.snapshots ++ s.accounts :: later) :
    t.revertTo s.snapshots.length = s := by
  unfold revertTo
  rw [h, List.getElem?_append_right (Nat.le_refl _), Nat.sub_self]
  simp

/-- Releasing a snapshot of `s` leaves the snapshots of `s`. -/
theorem commit_eq_of_snapshots {t : State} {later : List Accounts}
    (h : t.snapshots = s.snapshots ++ later) :
    t.commit s.snapshots.length = { s with accounts := t.accounts } := by
  unfold commit
  rw [h]
  simp

/-- A number that is not live is no snapshot. -/
theorem revertTo_of_length_le {id : Nat} (h : s.snapshots.length ≤ id) : s.revertTo id = s := by
  unfold revertTo
  rw [List.getElem?_eq_none h]

theorem commit_of_length_le {id : Nat} (h : s.snapshots.length ≤ id) : s.commit id = s := by
  unfold commit
  rw [List.take_of_length_le h]

end State

end PrecompileHost
