import PrecompileHost.Proofs.Checks
import PrecompileHost.Proofs.TokenDuality.Refusals

/-!
What every transfer of the token duality precompile comes to. Its checks decide whether it succeeds:
those of its caller in any case, those of the caps and the balances only where something is to be
moved. What it then does is told account by account.
-/

namespace PrecompileHost.Native.TokenDuality

/-! ### Checks -/

section

variable (c : Config) (caller : Address) (block : Word) (readOnly : Bool) (gas : Gas)
  (as : Accounts) (source target : Address) (amount : Word)

/-- The check of the cap on each transfer, where there is one. -/
def callCapChecks : List Check :=
  match c.perCallCap with
  | none => []
  | some cap => [⟨amount ≤ cap, (Refusal.overPerCallCap amount cap).error⟩]

/-- The checks of the cap on each block's total, where there is one: the total with the transfer has
to be a word, and within the cap. -/
def blockCapChecks : List Check :=
  match c.perBlockCap with
  | none => []
  | some cap =>
    [⟨(recorded as block).toNat + amount.toNat < Word.size, Refusal.untrackable.error⟩,
      ⟨recorded as block + amount ≤ cap,
        (Refusal.overPerBlockCap (recorded as block + amount) cap).error⟩]

def balanceChecks : List Check :=
  [⟨amount ≤ as.balance source, Refusal.insufficientBalance.error⟩,
    ⟨(as.balance target).toNat + amount.toNat < Word.size, Refusal.balanceOverflow.error⟩]

/-- The checks of a transfer, in the order in which they are made. -/
def transferChecks : List Check :=
  [⟨transferGas ≤ gas, .outOfGas⟩, ⟨Authorized c as caller, Refusal.unauthorized.error⟩,
    ⟨readOnly = false, .writeProtection⟩, ⟨target ≠ 0, Refusal.zeroRecipient.error⟩] ++
  if amount = 0 ∨ source = target then []
  else callCapChecks c amount ++ blockCapChecks c block as amount ++
    balanceChecks as source target amount

end

variable {c : Config} {caller : Address} {block : Word} {readOnly : Bool} {gas : Gas}
  {as bs tracked : Accounts} {source target : Address} {amount : Word} {error : CallError}

theorem passed_callCapChecks_iff :
    Check.Passed (callCapChecks c amount) ↔ ∀ cap, c.perCallCap = some cap → amount ≤ cap := by
  rw [callCapChecks]
  cases c.perCallCap <;> simp

theorem cap_of_stops (h : Check.Stops (callCapChecks c amount) error) :
    ∃ cap, c.perCallCap = some cap ∧ ¬ amount ≤ cap ∧
      error = (Refusal.overPerCallCap amount cap).error := by
  rw [callCapChecks] at h
  cases hcap : c.perCallCap with
  | none => simp [hcap] at h
  | some cap =>
    rw [hcap] at h
    simp only [Check.stops_cons, Check.stops_nil, and_false, or_false] at h
    exact ⟨cap, rfl, h.1, h.2⟩

theorem exists_tracked (h : Check.Passed (blockCapChecks c block as amount)) :
    ∃ tracked, Tracked c block amount as tracked := by
  rw [blockCapChecks] at h
  cases hcap : c.perBlockCap with
  | none => exact ⟨as, .uncapped hcap⟩
  | some cap =>
    rw [hcap] at h
    simp only [Check.passed_cons, Check.passed_nil, and_true] at h
    exact ⟨_, .capped hcap (if_pos h.1) h.2⟩

theorem trackRefused_of_stops (h : Check.Stops (blockCapChecks c block as amount) error) :
    ∃ r, TrackRefused c block amount as r ∧ error = r.error := by
  rw [blockCapChecks] at h
  cases hcap : c.perBlockCap with
  | none => simp [hcap] at h
  | some cap =>
    rw [hcap] at h
    simp only [Check.stops_cons, Check.stops_nil, and_false, or_false] at h
    obtain ⟨hsum, rfl⟩ | ⟨hsum, hgt, rfl⟩ := h
    · exact ⟨_, .untrackable hcap (if_neg hsum), rfl⟩
    · exact ⟨_, .overCap hcap (if_pos hsum) hgt, rfl⟩

theorem balance_of_tracked (h : Tracked c block amount as tracked) (a : Address) :
    tracked.balance a = as.balance a :=
  kept_of_tracked (fun as => as.balance a) (fun _ _ => Accounts.balance_create ..)
    (fun _ _ _ _ => Accounts.balance_setStorage ..) h

theorem nonce_of_tracked (h : Tracked c block amount as tracked) (a : Address) :
    tracked.nonce a = as.nonce a :=
  kept_of_tracked (fun as => as.nonce a) (fun _ _ => Accounts.nonce_create ..)
    (fun _ _ _ _ => Accounts.nonce_setStorage ..) h

/-- Neither tracking nor creating accounts changes the balances that are checked. -/
theorem balance_of_created (h : Tracked c block amount as tracked) (a : Address) :
    ((tracked.create source).create target).balance a = as.balance a := by
  rw [Accounts.balance_create, Accounts.balance_create, balance_of_tracked h]

theorem exists_moved (htracked : Tracked c block amount as tracked) (hne : source ≠ target)
    (h : Check.Passed (balanceChecks as source target amount)) :
    ∃ debited bs, ((tracked.create source).create target).debit? source amount = some debited ∧
      debited.credit? target amount = some bs := by
  simp only [balanceChecks, Check.passed_cons, Check.passed_nil, and_true] at h
  refine ⟨_, _, (Accounts.debit?_eq_some_iff _ source).mpr ⟨?_, rfl⟩,
    (Accounts.credit?_eq_some_iff _ target).mpr ⟨?_, rfl⟩⟩
  · rw [balance_of_created htracked]
    exact h.1
  · rw [Accounts.balance_setBalance, if_neg hne.symm, balance_of_created htracked]
    exact h.2

theorem transferRefused_of_stops (htracked : Tracked c block amount as tracked)
    (hmoves : Moves source target amount)
    (hcap : ∀ cap, c.perCallCap = some cap → amount ≤ cap)
    (h : Check.Stops (balanceChecks as source target amount) error) :
    ∃ r, TransferRefused c block source target amount as r ∧ error = r.error := by
  simp only [balanceChecks, Check.stops_cons, Check.stops_nil, and_false, or_false] at h
  obtain ⟨hbalance, rfl⟩ | ⟨hbalance, hroom, rfl⟩ := h
  · refine ⟨_, .insufficient hmoves hcap htracked ?_, rfl⟩
    rw [Accounts.debit?_eq_none_iff, balance_of_created htracked]
    exact BitVec.not_le.mp hbalance
  · refine ⟨_, .overflow hmoves hcap htracked
      ((Accounts.debit?_eq_some_iff _ source).mpr ⟨?_, rfl⟩) ?_, rfl⟩
    · rw [balance_of_created htracked]
      exact hbalance
    · rw [Accounts.credit?_eq_none_iff, Accounts.balance_setBalance, if_neg hmoves.2.2.symm,
        balance_of_created htracked]
      exact Nat.not_lt.mp hroom

/-! ### Effects -/

/-- What a transfer does that moves something: the amount has gone from one account to another, both
of which are there, and where blocks are capped, it has been added to the total on record. -/
structure Conveyed (c : Config) (block : Word) (source target : Address) (amount : Word)
    (as bs : Accounts) : Prop where
  debited : (bs.balance source).toNat + amount.toNat = (as.balance source).toNat
  credited : (bs.balance target).toNat = (as.balance target).toNat + amount.toNat
  recorded : c.perBlockCap ≠ none → bs.storage address blockSlot = block ∧
    (bs.storage address totalSlot).toNat = (recorded as block).toNat + amount.toNat
  balances : ∀ a, a ≠ source → a ≠ target → bs.balance a = as.balance a
  nonces : ∀ a, bs.nonce a = as.nonce a
  storage : ∀ a key, c.perBlockCap = none ∨ a ≠ address ∨ key ≠ blockSlot ∧ key ≠ totalSlot →
    bs.storage a key = as.storage a key
  contains : ∀ a, bs.contains a = true ↔
    as.contains a = true ∨ a = source ∨ a = target ∨ c.perBlockCap ≠ none ∧ a = address
  others : ∀ a, a ≠ source → a ≠ target → c.perBlockCap = none ∨ a ≠ address →
    bs.get? a = as.get? a

theorem conveyed_of_sent (htracked : Tracked c block amount as tracked)
    (h : tracked.Sent source target amount bs) : Conveyed c block source target amount as bs := by
  have hdebited := h.debited
  have hcredited := h.credited
  rw [balance_of_tracked htracked] at hdebited hcredited
  have hbalances : ∀ a, a ≠ source → a ≠ target → bs.balance a = as.balance a := by
    intro a hsource htarget
    rw [← balance_of_tracked htracked, Accounts.balance,
      Accounts.account_of_get?_eq (h.others a hsource htarget), ← Accounts.balance]
  have hnonces : ∀ a, bs.nonce a = as.nonce a := fun a =>
    (h.nonce a).trans (nonce_of_tracked htracked a)
  cases htracked with
  | uncapped hcap =>
    refine ⟨hdebited, hcredited, fun hsome => absurd hcap hsome, hbalances, hnonces,
      fun a key _ => h.storage a key, fun a => ?_, fun a hsource htarget _ =>
        h.others a hsource htarget⟩
    rw [h.contains a, hcap]
    simp
  | capped hcap htotal hle =>
    have hsome : c.perBlockCap ≠ none := by
      rw [hcap]
      exact Option.some_ne_none _
    -- either account may be the precompile's own; moving balances keeps the record all the same
    refine ⟨hdebited, hcredited, fun _ => ⟨?_, ?_⟩, hbalances, hnonces, fun a key hkey => ?_,
      fun a => ?_, fun a hsource htarget ha => ?_⟩
    · rw [h.storage, blockSlot_record]
    · rw [h.storage, totalSlot_record]
      exact Word.toNat_of_add?_eq_some htotal
    · obtain hne | ⟨hblock, htotal⟩ := hkey.resolve_left hsome
      · rw [h.storage, storage_record, if_neg fun h => hne h.1, if_neg fun h => hne h.1]
      · rw [h.storage, storage_record, if_neg fun h => htotal h.2, if_neg fun h => hblock h.2]
    · rw [h.contains a, contains_record]
      grind
    · rw [h.others a hsource htarget, get?_record_of_ne _ _ _ (ha.resolve_left hsome)]

/-- What a transfer does: nothing if it would move nothing. -/
def Delivers (c : Config) (block : Word) (source target : Address) (amount : Word)
    (as bs : Accounts) : Prop :=
  if amount = 0 ∨ source = target then bs = as
  else Conveyed c block source target amount as bs

theorem delivers_of_transferred (h : Transferred c block source target amount as bs) :
    Delivers c block source target amount as bs := by
  cases h with
  | stayed _ hstay =>
    rw [Delivers, if_pos hstay]
  | moved _ hamount hne _ htracked hdebit hcredit =>
    rw [Delivers, if_neg (not_or.mpr ⟨hamount, hne⟩)]
    exact conveyed_of_sent htracked (Accounts.sent_of_debit?_credit? hne hdebit hcredit).of_create

theorem exists_transferred (htarget : target ≠ 0)
    (h : ¬ (amount = 0 ∨ source = target) → Check.Passed (callCapChecks c amount ++
      blockCapChecks c block as amount ++ balanceChecks as source target amount)) :
    ∃ bs, Transferred c block source target amount as bs := by
  by_cases hstay : amount = 0 ∨ source = target
  · exact ⟨as, .stayed htarget hstay⟩
  · obtain ⟨hamount, hne⟩ := not_or.mp hstay
    have hpassed := h hstay
    rw [Check.passed_append, Check.passed_append, passed_callCapChecks_iff] at hpassed
    obtain ⟨⟨hcap, hblock⟩, hbalances⟩ := hpassed
    obtain ⟨tracked, htracked⟩ := exists_tracked hblock
    obtain ⟨debited, bs, hdebit, hcredit⟩ := exists_moved htracked hne hbalances
    exact ⟨bs, .moved htarget hamount hne hcap htracked hdebit hcredit⟩

theorem exists_transferRefused (hmoves : Moves source target amount)
    (h : Check.Stops (callCapChecks c amount ++ blockCapChecks c block as amount ++
      balanceChecks as source target amount) error) :
    ∃ r, TransferRefused c block source target amount as r ∧ error = r.error := by
  rw [Check.stops_append, Check.stops_append, Check.passed_append, passed_callCapChecks_iff] at h
  obtain (hstops | ⟨hcap, hstops⟩) | ⟨⟨hcap, hblock⟩, hstops⟩ := h
  · obtain ⟨cap, hcap, hgt, rfl⟩ := cap_of_stops hstops
    exact ⟨_, .overCallCap hmoves hcap hgt, rfl⟩
  · obtain ⟨r, hrefused, rfl⟩ := trackRefused_of_stops hstops
    exact ⟨r, .untracked hmoves hcap hrefused, rfl⟩
  · obtain ⟨tracked, htracked⟩ := exists_tracked hblock
    exact transferRefused_of_stops htracked hmoves hcap hstops

theorem rejected_of_stops
    (h : Check.Stops (transferChecks c caller block readOnly gas as source target amount) error) :
    Rejected c caller block readOnly gas as (.transfer source target amount) error := by
  simp only [transferChecks, List.cons_append, List.nil_append, Check.stops_cons] at h
  obtain ⟨hgas, rfl⟩ | ⟨hgas, ⟨hcaller, rfl⟩ | ⟨hcaller, ⟨hro, rfl⟩ | ⟨hwritable, hrest⟩⟩⟩ := h
  · exact .underpaid (Gas.sub?_eq_none_iff.mpr (UInt64.not_le.mp hgas))
  · exact .unauthorized (Gas.sub?_of_le hgas) hcaller
  · exact .unwritable (Gas.sub?_of_le hgas) hcaller rfl (Bool.not_eq_false _ ▸ hro)
  · -- the remaining checks are those of the transfer itself, whoever asks for it
    suffices hrefused : ∃ r, TransferRefused c block source target amount as r ∧
        error = r.error by
      obtain ⟨r, hrefused, rfl⟩ := hrefused
      exact .refused (Gas.sub?_of_le hgas) hcaller hwritable hrefused
    obtain ⟨htarget, rfl⟩ | ⟨htarget, hstops⟩ := hrest
    · exact ⟨_, .zeroRecipient (Decidable.not_not.mp htarget), rfl⟩
    · split at hstops
      · exact absurd hstops Check.stops_nil
      · rename_i hmoves
        exact exists_transferRefused ⟨htarget, not_or.mp hmoves⟩ hstops

theorem effected_of_passed
    (h : Check.Passed (transferChecks c caller block readOnly gas as source target amount)) :
    transferGas ≤ gas ∧ ∃ bs, Transferred c block source target amount as bs ∧
      Effected c caller block readOnly as (.transfer source target amount) [] bs := by
  simp only [transferChecks, List.cons_append, List.nil_append, Check.passed_cons] at h
  obtain ⟨hgas, hcaller, hwritable, htarget, hrest⟩ := h
  obtain ⟨bs, htransferred⟩ : ∃ bs, Transferred c block source target amount as bs :=
    exists_transferred htarget fun hmoves => by rwa [if_neg hmoves] at hrest
  exact ⟨hgas, bs, htransferred, .transferred hcaller hwritable htransferred⟩

/-! ### Calls -/

/-- Wherever the precompile is active, and however it is configured: what becomes of a transfer is
decided by its checks, which are made on the accounts as the value of the call has left them. They
are those of the gas, of the caller, of the protection of the state and of the recipient, and where
something is to be moved also those of the caps and the balances. -/
theorem transfers_decided (e : Engine) (hdepth : e.context.depth ≤ e.setting.maxDepth) (c : Config)
    (r : Request) (hactive : e.setting.active.get? r.target = some (precompile c)) (f : Frame)
    (hframe : r.frame? = some f) (paid : Accounts) (hfunded : r.Funded e.world.state.accounts paid)
    (source target : Address) (amount : Word)
    (hdecode : TokenDualityCall.decode r.input = .ok (.transfer source target amount)) :
    (CallContext.depthLimit ≤ e.context.depth + 1 →
      (e.dispatch r).record.ending = .aborted "attempt to add with overflow") ∧
    (e.context.depth + 1 < CallContext.depthLimit →
      e.DecidedBy r
        (transferChecks c f.contract.caller e.setting.block.number
          (e.context.enter r.callType).readOnly r.gas paid source target amount)
        transferGas (Delivers c e.setting.block.number source target amount paid)) := by
  refine ⟨Engine.ending_of_uncountable hdepth hactive hframe hfunded, fun hcount => ?_⟩
  refine Engine.decidedBy_of_leaf hdepth hactive hframe hfunded hcount (leaf_routine c)
    (fun hpassed => ?_) fun error hstops => ?_
  · obtain ⟨hgas, bs, htransferred, heffected⟩ := effected_of_passed hpassed
    exact ⟨bs, delivers_of_transferred htransferred,
      yields_routine.mpr ⟨_, hdecode, bs, heffected, Gas.sub?_of_le hgas, rfl⟩⟩
  · have hrejected := rejected_of_stops hstops
    exact ⟨hrejected.isRevert, fails_routine.mpr (.inr ⟨_, hdecode, hrejected⟩)⟩

namespace Till

def config : Config :=
  { admin := 0xa0, perCallCap := some 50, perBlockCap := some 60 }

def engine : Engine :=
  (Engine.create { accounts := ((∅ : Accounts).setBalance 0xa0 9).setBalance 0xa1 100 }
    (WordMap.ofList [(address, precompile config)])).withBlock { number := 5 }

/-- The admin asks for a transfer, and pays the precompile 9 for it. -/
def request (source : Address) (amount : Word) : Request :=
  { callType := .call, caller := .account 0xa0, target := address
    input := (TokenDualityCall.transfer source 0xb1 amount).encode, gas := 50000, value := 9 }

def frame : Frame :=
  { contract := { caller := 0xa0, address, value := 9, gas := 50000 }
    callType := .call
    rawCaller := 0xa0
    rawSelf := address }

/-- The payment itself can be passed on, and then counts as transferred in the block. No more than
that is there, and the cap on each transfer is checked before the balance is. -/
theorem engine_transfers_decided :
    (engine.dispatch (request address 9)).record.ending = .returned ⟨.ok [], 1000⟩ ∧
      ((engine.dispatch (request address 9)).world.state.accounts.storage address
        totalSlot).toNat = 9 ∧
      (engine.dispatch (request address 10)).record.ending =
        .returned ⟨.error Refusal.insufficientBalance.error, 0⟩ ∧
      (engine.dispatch (request 0xa1 51)).record.ending =
        .returned ⟨.error (Refusal.overPerCallCap 51 50).error, 0⟩ := by
  have hcall : ∀ source amount paid, _ → _ → _ := fun source amount paid hfunded hdecode =>
    transfers_decided engine (by decide) config (request source amount) rfl frame rfl paid hfunded
      source 0xb1 amount hdecode
  have hcount : engine.context.depth + 1 < CallContext.depthLimit := by decide
  have hpaid := (hcall address 9 _ ⟨by decide +kernel, rfl⟩ rfl).2 hcount
  have hshort := (hcall address 10 _ ⟨by decide +kernel, rfl⟩ rfl).2 hcount
  have hcapped := (hcall 0xa1 51 _ ⟨by decide +kernel, rfl⟩ rfl).2 hcount
  obtain ⟨output, left, hok⟩ := hpaid.succeeds.mpr (by
    simp only [transferChecks, callCapChecks, blockCapChecks, balanceChecks, config,
      List.cons_append, List.nil_append, Check.passed_cons]
    refine ⟨by decide, .inl rfl, rfl, by decide, ?_⟩
    rw [if_neg (by decide)]
    simp only [Check.passed_cons, Check.passed_nil, and_true]
    decide +kernel)
  obtain ⟨rfl, rfl, hdelivers⟩ := hpaid.success _ _ hok
  rw [Delivers, if_neg (by decide)] at hdelivers
  obtain ⟨left, hinsufficient⟩ := (hshort.fails Refusal.insufficientBalance.error).mpr (by
    refine .later (by decide) (.later (.inl rfl) (.later rfl (.later (by decide) ?_)))
    rw [if_neg (by decide)]
    exact .later (by decide) (.later (by decide +kernel) (.later (by decide +kernel)
      (.here (by decide +kernel)))))
  obtain ⟨rfl, -⟩ := hshort.failure _ _ hinsufficient
  obtain ⟨left, hover⟩ := (hcapped.fails (Refusal.overPerCallCap 51 50).error).mpr (by
    refine .later (by decide) (.later (.inl rfl) (.later rfl (.later (by decide) ?_)))
    rw [if_neg (by decide)]
    exact .here (by decide))
  obtain ⟨rfl, -⟩ := hcapped.failure _ _ hover
  refine ⟨hok, (hdelivers.recorded (Option.some_ne_none _)).2.trans ?_, hinsufficient, hover⟩
  decide +kernel

end Till

end PrecompileHost.Native.TokenDuality
