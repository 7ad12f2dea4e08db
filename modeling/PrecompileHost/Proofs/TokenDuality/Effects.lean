import Mathlib.Algebra.Ring.Nat
import PrecompileHost.Native.TokenDuality
import PrecompileHost.Proofs.Discipline
import PrecompileHost.Proofs.Success

/-!
What a call of the token duality precompile does when it succeeds: which checks it has passed, what
it answers and what becomes of the accounts, method by method. The routine itself is a leaf that
handles no snapshots.
-/

namespace PrecompileHost

namespace Native.TokenDuality

/-! ### The slots -/

theorem toNat_toWord_lt (a : Address) : a.toWord.toNat < 2 ^ 160 := by
  rw [Address.toWord, BitVec.toNat_setWidth_of_le (by decide)]
  exact a.isLt

theorem toWord_ne_blockSlot (a : Address) : a.toWord ≠ blockSlot := by
  intro h
  have hlt := toNat_toWord_lt a
  rw [h] at hlt
  exact absurd hlt (by decide)

theorem toWord_ne_totalSlot (a : Address) : a.toWord ≠ totalSlot := by
  intro h
  have hlt := toNat_toWord_lt a
  rw [h] at hlt
  exact absurd hlt (by decide)

theorem blockSlot_ne_totalSlot : blockSlot ≠ totalSlot := by
  decide

/-- The address is on the stored allowlist. -/
def Listed (as : Accounts) (a : Address) : Prop :=
  as.storage address a.toWord ≠ 0

instance (as : Accounts) (a : Address) : Decidable (Listed as a) :=
  inferInstanceAs (Decidable (_ ≠ _))

theorem decide_listed (as : Accounts) (a : Address) :
    decide (Listed as a) = !decide (as.storage address a.toWord = 0) := by
  by_cases h : as.storage address a.toWord = 0
  · have hlisted : ¬ Listed as a := fun hl => hl h
    rw [decide_eq_false hlisted, decide_eq_true h]
    rfl
  · have hlisted : Listed as a := h
    rw [decide_eq_true hlisted, decide_eq_false h]
    rfl

/-- The total on record for a block. -/
def recorded (as : Accounts) (block : Word) : Word :=
  if as.storage address blockSlot = block then as.storage address totalSlot else 0

theorem recorded_congr {as bs : Accounts}
    (h : ∀ key, bs.storage address key = as.storage address key) (block : Word) :
    recorded bs block = recorded as block := by
  rw [recorded, recorded, h, h]

/-- Puts an address on the list or takes it off. -/
def enlist (as : Accounts) (a : Address) (listed : Bool) : Accounts :=
  (as.create address).setStorage address a.toWord (Word.ofBool listed)

/-- Puts a total on record for a block. -/
def record (as : Accounts) (block total : Word) : Accounts :=
  ((as.create address).setStorage address blockSlot block).setStorage address totalSlot total

theorem blockSlot_enlist (as : Accounts) (a : Address) (listed : Bool) :
    (enlist as a listed).storage address blockSlot = as.storage address blockSlot := by
  rw [enlist, Accounts.storage_setStorage, if_neg fun h => toWord_ne_blockSlot a h.2.symm,
    Accounts.storage_create]

theorem totalSlot_enlist (as : Accounts) (a : Address) (listed : Bool) :
    (enlist as a listed).storage address totalSlot = as.storage address totalSlot := by
  rw [enlist, Accounts.storage_setStorage, if_neg fun h => toWord_ne_totalSlot a h.2.symm,
    Accounts.storage_create]

@[simp] theorem recorded_enlist (as : Accounts) (a : Address) (listed : Bool) (block : Word) :
    recorded (enlist as a listed) block = recorded as block := by
  rw [recorded, recorded, blockSlot_enlist, totalSlot_enlist]

theorem storage_record (as : Accounts) (block total : Word) (a : Address) (key : Word) :
    (record as block total).storage a key =
      if a = address ∧ key = totalSlot then total
      else if a = address ∧ key = blockSlot then block
      else as.storage a key := by
  rw [record, Accounts.storage_setStorage, Accounts.storage_setStorage, Accounts.storage_create]

theorem blockSlot_record (as : Accounts) (block total : Word) :
    (record as block total).storage address blockSlot = block := by
  rw [storage_record, if_neg fun h => blockSlot_ne_totalSlot h.2, if_pos ⟨rfl, rfl⟩]

theorem totalSlot_record (as : Accounts) (block total : Word) :
    (record as block total).storage address totalSlot = total := by
  rw [storage_record, if_pos ⟨rfl, rfl⟩]

theorem recorded_record (as : Accounts) (block total : Word) :
    recorded (record as block total) block = total := by
  rw [recorded, blockSlot_record, if_pos rfl, totalSlot_record]

theorem get?_record_of_ne (as : Accounts) (block total : Word) {a : Address} (ha : a ≠ address) :
    (record as block total).get? a = as.get? a := by
  unfold record Accounts.setStorage Accounts.create Accounts.update
  rw [WordMap.get?_insert, if_neg ha, WordMap.get?_insert, if_neg ha, WordMap.get?_insert,
    if_neg ha]

theorem contains_record (as : Accounts) (block total : Word) (a : Address) :
    (record as block total).contains a = true ↔ a = address ∨ as.contains a = true := by
  rw [record, Accounts.contains_setStorage, Accounts.contains_setStorage,
    Accounts.contains_create]
  simp only [or_self_left]

/-! ### Effects -/

/-- The caller may transfer. -/
def Authorized (c : Config) (as : Accounts) (caller : Address) : Prop :=
  caller = c.admin ∨ Listed as caller

/-- What tracking a transfer makes of the accounts. -/
inductive Tracked (c : Config) (block amount : Word) (as : Accounts) : Accounts → Prop
  | uncapped (hcap : c.perBlockCap = none) : Tracked c block amount as as
  | capped {cap total : Word} (hcap : c.perBlockCap = some cap)
      (htotal : (recorded as block).add? amount = some total) (hle : total ≤ cap) :
      Tracked c block amount as (record as block total)

/-- What a transfer makes of the accounts, the checks of its caller aside. -/
inductive Transferred (c : Config) (block : Word) (source target : Address) (amount : Word)
    (as : Accounts) : Accounts → Prop
  | stayed (htarget : target ≠ 0) (hstay : amount = 0 ∨ source = target) :
      Transferred c block source target amount as as
  | moved {tracked debited credited : Accounts} (htarget : target ≠ 0) (hamount : amount ≠ 0)
      (hne : source ≠ target) (hcap : ∀ cap, c.perCallCap = some cap → amount ≤ cap)
      (htracked : Tracked c block amount as tracked)
      (hdebit : ((tracked.create source).create target).debit? source amount = some debited)
      (hcredit : debited.credit? target amount = some credited) :
      Transferred c block source target amount as credited

/-- The entry of the allowlist that a method sets. -/
def update? : TokenDualityCall → Option (Address × Bool)
  | .addToAllowList a => some (a, true)
  | .removeFromAllowList a => some (a, false)
  | _ => none

/-- The answer of a method that only looks. -/
def view? (c : Config) (block : Word) (as : Accounts) : TokenDualityCall → Option Bytes
  | .allowlist a => some (Word.ofBool (decide (Listed as a))).toBytes
  | .transferredThisBlock => some (recorded as block).toBytes
  | .perCallCap => some (c.perCallCap.getD Word.largest).toBytes
  | .perBlockCap => some (c.perBlockCap.getD Word.largest).toBytes
  | .transfer _ _ _ | .addToAllowList _ | .removeFromAllowList _ => none

/-- What a call that succeeds has checked, what it answers and what it makes of the accounts. -/
inductive Effected (c : Config) (caller : Address) (block : Word) (readOnly : Bool)
    (as : Accounts) : TokenDualityCall → Bytes → Accounts → Prop
  | transferred {source target : Address} {amount : Word} {bs : Accounts}
      (hauthorized : Authorized c as caller) (hwritable : readOnly = false)
      (htransferred : Transferred c block source target amount as bs) :
      Effected c caller block readOnly as (.transfer source target amount) [] bs
  | updated {call : TokenDualityCall} {a : Address} {listed : Bool}
      (hupdate : update? call = some (a, listed)) (hadmin : caller = c.admin)
      (hwritable : readOnly = false) :
      Effected c caller block readOnly as call [] (enlist as a listed)
  | viewed {call : TokenDualityCall} {output : Bytes}
      (hview : view? c block as call = some output) :
      Effected c caller block readOnly as call output as

/-- The gas that a method is charged. -/
def price : TokenDualityCall → Gas
  | .transfer _ _ _ => transferGas
  | .addToAllowList _ | .removeFromAllowList _ => updateGas
  | .allowlist _ | .transferredThisBlock | .perCallCap | .perBlockCap => viewGas

/-! ### Success, function by function -/

section

open Program

variable {h : Host} {frame : Frame} {gas left : Gas} {w after : World} {c : Config}
  {a caller : Address} {block amount : Word}

@[simp] theorem yields_isAllowlisted {listed : Bool} :
    (isAllowlisted a).Yields h frame gas w listed left after ↔
      listed = decide (Listed w.state.accounts a) ∧ left = gas ∧ after = w := by
  simp [isAllowlisted, yields_bind, and_assoc, decide_listed]

@[simp] theorem yields_setAllowlisted {listed : Bool} {u : Unit} :
    (setAllowlisted a listed).Yields h frame gas w u left after ↔
      h.context.readOnly = false ∧ left = gas ∧
        after = w.holding (enlist w.state.accounts a listed) := by
  simp [setAllowlisted, yields_bind, and_assoc, enlist]

@[simp] theorem yields_authorize {u : Unit} :
    (authorize c caller).Yields h frame gas w u left after ↔
      Authorized c w.state.accounts caller ∧ left = gas ∧ after = w := by
  by_cases hadmin : caller = c.admin
  · simp [authorize, Authorized, hadmin]
  · by_cases hlisted : Listed w.state.accounts caller
    · simp [authorize, Authorized, hadmin, hlisted, yields_bind, and_assoc]
    · simp [authorize, Authorized, hadmin, hlisted, yields_bind, and_assoc]

@[simp] theorem yields_transferredIn {total : Word} :
    (transferredIn block).Yields h frame gas w total left after ↔
      total = recorded w.state.accounts block ∧ left = gas ∧ after = w := by
  by_cases hblock : w.state.accounts.storage address blockSlot = block
  · simp [transferredIn, recorded, hblock, yields_bind, and_assoc]
  · simp [transferredIn, recorded, hblock, yields_bind, and_assoc]

@[simp] theorem yields_checkCallCap {u : Unit} :
    (checkCallCap c amount).Yields h frame gas w u left after ↔
      (∀ cap, c.perCallCap = some cap → amount ≤ cap) ∧ left = gas ∧ after = w := by
  cases hcap : c.perCallCap <;> simp [checkCallCap, hcap]

theorem yields_track (hwritable : h.context.readOnly = false) {u : Unit} :
    (track c block amount).Yields h frame gas w u left after ↔
      ∃ as, Tracked c block amount w.state.accounts as ∧ left = gas ∧ after = w.holding as := by
  cases hcap : c.perBlockCap with
  | none =>
    simp only [track, hcap, Program.pure_eq, yields_pure]
    constructor
    · rintro ⟨-, rfl, rfl⟩
      exact ⟨_, .uncapped hcap, rfl, rfl⟩
    · rintro ⟨as, htracked, rfl, rfl⟩
      cases htracked with
      | uncapped => exact ⟨trivial, rfl, rfl⟩
      | capped hsome => simp [hcap] at hsome
  | some cap =>
    simp only [track, hcap, yields_bind, yields_transferredIn, and_assoc, exists_and_left,
      exists_eq_left]
    cases htotal : (recorded w.state.accounts block).add? amount with
    | none =>
      simp only [yields_fail, false_iff]
      rintro ⟨as, htracked, -, -⟩
      cases htracked with
      | uncapped hnone => simp [hcap] at hnone
      | capped _ hsome => simp [htotal] at hsome
    | some total =>
      simp only [yields_bind, yields_require, yields_createAccount, yields_setStorage, hwritable,
        decide_eq_true_eq, World.accounts_holding, World.holding_holding, and_assoc,
        exists_and_left, exists_eq_left, exists_const, true_and]
      constructor
      · rintro ⟨hle, rfl, rfl⟩
        exact ⟨_, .capped hcap htotal hle, rfl, rfl⟩
      · rintro ⟨as, htracked, rfl, rfl⟩
        cases htracked with
        | uncapped hnone => simp [hcap] at hnone
        | capped hsome hadd hle =>
          obtain rfl : cap = _ := Option.some.inj (hcap.symm.trans hsome)
          obtain rfl : total = _ := Option.some.inj (htotal.symm.trans hadd)
          exact ⟨hle, rfl, rfl⟩

theorem yields_transfer (hwritable : h.context.readOnly = false) {source target : Address}
    {u : Unit} :
    (transfer c block source target amount).Yields h frame gas w u left after ↔
      ∃ as, Transferred c block source target amount w.state.accounts as ∧ left = gas ∧
        after = w.holding as := by
  by_cases hamount : amount = 0
  · simp only [transfer, yields_bind, yields_require, hamount, if_true, Program.pure_eq,
      yields_pure, decide_eq_true_eq, and_assoc, exists_and_left, exists_eq_left, exists_const]
    constructor
    · rintro ⟨htarget, -, rfl, rfl⟩
      exact ⟨_, .stayed htarget (.inl rfl), rfl, rfl⟩
    · rintro ⟨as, htransferred, rfl, rfl⟩
      cases htransferred with
      | stayed htarget => exact ⟨htarget, trivial, rfl, rfl⟩
      | moved _ hne => exact absurd rfl hne
  · by_cases hne : source = target
    · simp only [transfer, yields_bind, yields_require, hamount, if_false, if_pos hne, yields_log,
        decide_eq_true_eq, and_assoc, exists_and_left, exists_eq_left, exists_const]
      constructor
      · rintro ⟨htarget, rfl, rfl⟩
        exact ⟨_, .stayed htarget (.inr hne), rfl, rfl⟩
      · rintro ⟨as, htransferred, rfl, rfl⟩
        cases htransferred with
        | stayed htarget => exact ⟨htarget, rfl, rfl⟩
        | moved _ _ hdistinct => exact absurd hne hdistinct
    · simp only [transfer, yields_bind, yields_require, hamount, if_false, if_neg hne,
        yields_checkCallCap, yields_track hwritable, yields_createAccount, yields_debit,
        yields_credit, yields_log, hwritable, World.accounts_holding, World.holding_holding,
        decide_eq_true_eq, and_assoc, exists_and_left, exists_eq_left, exists_const, true_and]
      constructor
      · rintro ⟨htarget, hcap, between, world, ⟨tracked, htracked, rfl, rfl⟩, hdebit, hcredit, rfl,
          rfl⟩
        -- the routine has insisted on both changes of balance, so both were possible
        obtain ⟨debited, hdebited⟩ := Option.isSome_iff_exists.mp hdebit
        rw [hdebited] at hcredit ⊢
        obtain ⟨credited, hcredited⟩ := Option.isSome_iff_exists.mp hcredit
        rw [hcredited]
        exact ⟨credited, .moved htarget hamount hne hcap htracked hdebited hcredited, rfl, rfl⟩
      · rintro ⟨as, htransferred, rfl, rfl⟩
        cases htransferred with
        | stayed _ hstay => exact absurd hstay (not_or.mpr ⟨hamount, hne⟩)
        | moved htarget _ _ hcap htracked hdebited hcredited =>
          refine ⟨htarget, hcap, _, _, ⟨_, htracked, rfl, rfl⟩, ?_⟩
          rw [World.accounts_holding, hdebited]
          simp [hcredited]

theorem yields_updateAllowlist {listed : Bool} {u : Unit} :
    (updateAllowlist c caller a listed).Yields h frame gas w u left after ↔
      caller = c.admin ∧ h.context.readOnly = false ∧ Gas.sub? gas updateGas = some left ∧
        after = w.holding (enlist w.state.accounts a listed) := by
  simp only [updateAllowlist, yields_bind, yields_charge, yields_require, yields_setAllowlisted,
    yields_log, decide_eq_true_eq, and_assoc, exists_and_left, exists_eq_left, exists_const]
  constructor
  · rintro ⟨_, hgas, hadmin, hwritable, rfl, rfl⟩
    exact ⟨hadmin, hwritable, hgas, rfl⟩
  · rintro ⟨hadmin, hwritable, hgas, rfl⟩
    exact ⟨_, hgas, hadmin, hwritable, rfl, rfl⟩

/-- A method that sets an entry of the allowlist. -/
theorem yields_update {call : TokenDualityCall} {listed : Bool} {output : Bytes}
    (hupdate : update? call = some (a, listed))
    (hview : view? c block w.state.accounts call = none) :
    (updateAllowlist c caller a listed >>= fun _ => Program.pure []).Yields h frame gas w output
        left after ↔
      ∃ as, Effected c caller block h.context.readOnly w.state.accounts call output as ∧
        Gas.sub? gas updateGas = some left ∧ after = w.holding as := by
  simp only [yields_bind, yields_updateAllowlist, yields_pure, exists_const, and_assoc,
    exists_and_left]
  constructor
  · rintro ⟨hadmin, hwritable, _, hgas, _, rfl, rfl, rfl, rfl⟩
    exact ⟨_, .updated hupdate hadmin hwritable, hgas, rfl⟩
  · rintro ⟨as, heffected, hgas, rfl⟩
    cases heffected with
    | transferred => cases hupdate
    | viewed hsome => simp [hview] at hsome
    | updated hentry hadmin hwritable =>
      obtain ⟨rfl, rfl⟩ := Prod.mk.inj (Option.some.inj (hupdate.symm.trans hentry))
      exact ⟨hadmin, hwritable, _, hgas, _, rfl, rfl, rfl, rfl⟩

/-- A method that only looks. -/
theorem yields_view {call : TokenDualityCall} {answer output : Bytes}
    (hview : view? c block w.state.accounts call = some answer) (hupdate : update? call = none) :
    (∃ between, Gas.sub? gas viewGas = some between ∧ output = answer ∧ left = between ∧
        after = w) ↔
      ∃ as, Effected c caller block h.context.readOnly w.state.accounts call output as ∧
        Gas.sub? gas viewGas = some left ∧ after = w.holding as := by
  constructor
  · rintro ⟨_, hgas, rfl, rfl, rfl⟩
    exact ⟨_, .viewed hview, hgas, rfl⟩
  · rintro ⟨as, heffected, hgas, rfl⟩
    cases heffected with
    | transferred => cases hview
    | updated hentry => simp [hupdate] at hentry
    | viewed hsome =>
      exact ⟨_, hgas, Option.some.inj (hsome.symm.trans hview), rfl, rfl⟩

/-- A call succeeds exactly if its gas covers the price and its checks are passed. -/
theorem yields_execute {call : TokenDualityCall} {output : Bytes} :
    (execute c caller block call).Yields h frame gas w output left after ↔
      ∃ as, Effected c caller block h.context.readOnly w.state.accounts call output as ∧
        Gas.sub? gas (price call) = some left ∧ after = w.holding as := by
  cases call with
  | transfer source target amount =>
    simp only [execute, yields_bind, yields_charge, yields_authorize, yields_requireWritable,
      Program.pure_eq, yields_pure, and_assoc, exists_and_left, exists_eq_left, exists_const]
    constructor
    · rintro ⟨_, hgas, hauthorized, hwritable, _, _, _, htransfer, rfl, rfl, rfl⟩
      obtain ⟨as, htransferred, rfl, rfl⟩ := (yields_transfer hwritable).mp htransfer
      exact ⟨as, .transferred hauthorized hwritable htransferred, hgas, rfl⟩
    · rintro ⟨as, heffected, hgas, rfl⟩
      cases heffected with
      | transferred hauthorized hwritable htransferred =>
        refine ⟨_, hgas, hauthorized, hwritable, (), _, _, ?_, rfl, rfl, rfl⟩
        exact (yields_transfer hwritable).mpr ⟨as, htransferred, rfl, rfl⟩
      | updated hupdate => cases hupdate
      | viewed hview => cases hview
  | addToAllowList a => exact yields_update rfl rfl
  | removeFromAllowList a => exact yields_update rfl rfl
  | allowlist a =>
    simp only [execute, yields_bind, yields_charge, yields_isAllowlisted, Program.pure_eq,
      yields_pure, and_assoc, exists_and_left, exists_eq_left, exists_const]
    exact yields_view rfl rfl
  | transferredThisBlock =>
    simp only [execute, yields_bind, yields_charge, yields_transferredIn, Program.pure_eq,
      yields_pure, and_assoc, exists_and_left, exists_eq_left, exists_const]
    exact yields_view rfl rfl
  | perCallCap | perBlockCap =>
    simp only [execute, yields_bind, yields_charge, Program.pure_eq, yields_pure, and_assoc,
      exists_and_left, exists_eq_left, exists_const]
    exact yields_view rfl rfl

/-- The routine carries out the call that its input decodes to, for the caller that its frame
sees and in the block of its setting. -/
theorem yields_routine {input output : Bytes} :
    (routine c input).Yields h frame gas w output left after ↔
      ∃ call, TokenDualityCall.decode input = .ok call ∧
        ∃ as, Effected c frame.contract.caller h.setting.block.number h.context.readOnly
            w.state.accounts call output as ∧
          Gas.sub? gas (price call) = some left ∧ after = w.holding as := by
  simp only [routine, yields_bind, yields_observe, yields_log, and_assoc, exists_and_left,
    exists_eq_left, exists_const]
  cases hdecode : TokenDualityCall.decode input with
  | error e => simp
  | ok call =>
    simp only [yields_bind, yields_chain, yields_execute, and_assoc, exists_and_left,
      exists_eq_left]
    simp only [Except.ok.injEq, exists_eq_left']
    rfl

end

/-! ### What a call keeps

A view of the accounts is kept by a call if it is kept by each thing that the call can do. -/

/-- Moving the balances does not touch what was stored before. -/
theorem storage_of_moved {as debited bs : Accounts} {source target : Address} {amount : Word}
    (hdebit : ((as.create source).create target).debit? source amount = some debited)
    (hcredit : debited.credit? target amount = some bs) (a : Address) (key : Word) :
    bs.storage a key = as.storage a key := by
  rw [Accounts.storage_of_credit? hcredit, Accounts.storage_of_debit? hdebit,
    Accounts.storage_create, Accounts.storage_create]

section

variable {β : Type} (view : Accounts → β) {c : Config} {block amount : Word} {as bs : Accounts}

theorem kept_of_tracked (create : ∀ as a, view (as.create a) = view as)
    (slots : ∀ as key value, key = blockSlot ∨ key = totalSlot →
      view (as.setStorage address key value) = view as)
    (h : Tracked c block amount as bs) : view bs = view as := by
  cases h with
  | uncapped => rfl
  | capped => rw [record, slots _ _ _ (.inr rfl), slots _ _ _ (.inl rfl), create]

theorem kept_of_transferred {source target : Address}
    (create : ∀ as a, view (as.create a) = view as)
    (slots : ∀ as key value, key = blockSlot ∨ key = totalSlot →
      view (as.setStorage address key value) = view as)
    (moved : ∀ {as bs cs : Accounts} {source target amount},
      as.debit? source amount = some bs → bs.credit? target amount = some cs → view cs = view as)
    (h : Transferred c block source target amount as bs) : view bs = view as := by
  cases h with
  | stayed => rfl
  | moved _ _ _ _ htracked hdebit hcredit =>
    rw [moved hdebit hcredit, create, create, kept_of_tracked view create slots htracked]

theorem kept_of_effected {caller : Address} {readOnly : Bool} {call : TokenDualityCall}
    {output : Bytes} (create : ∀ as a, view (as.create a) = view as)
    (stored : ∀ as key value, view (as.setStorage address key value) = view as)
    (moved : ∀ {as bs cs : Accounts} {source target amount},
      as.debit? source amount = some bs → bs.credit? target amount = some cs → view cs = view as)
    (h : Effected c caller block readOnly as call output bs) : view bs = view as := by
  cases h with
  | transferred _ _ htransferred =>
    exact kept_of_transferred view create (fun as key value _ => stored as key value) moved
      htransferred
  | updated => rw [enlist, stored, create]
  | viewed => rfl

end

/-! ### The text of the routine -/

section

open Program

/-- What the routine keeps to. -/
abbrev Plain : Operation → Prop :=
  fun o => o.handlesSnapshots = false

theorem leaf_isAllowlisted (a : Address) : (isAllowlisted a).Leaf Plain := by
  refine Leaf.bind (leaf_perform rfl) fun value => ?_
  exact Leaf.bind (leaf_perform rfl) fun _ => trivial

theorem leaf_authorize (c : Config) (caller : Address) : (authorize c caller).Leaf Plain := by
  unfold authorize
  split
  · exact leaf_perform rfl
  · refine Leaf.bind (leaf_isAllowlisted caller) fun listed => ?_
    split
    · exact leaf_perform rfl
    · exact Leaf.bind (leaf_perform rfl) fun _ => trivial

theorem leaf_transferredIn (block : Word) : (transferredIn block).Leaf Plain := by
  refine Leaf.bind (leaf_perform rfl) fun value => ?_
  split
  · exact leaf_perform rfl
  · trivial

theorem leaf_checkCallCap (c : Config) (amount : Word) : (checkCallCap c amount).Leaf Plain := by
  unfold checkCallCap
  split
  · trivial
  · exact leaf_require _ _

theorem leaf_track (c : Config) (block amount : Word) : (track c block amount).Leaf Plain := by
  unfold track
  split
  · trivial
  · refine Leaf.bind (leaf_transferredIn block) fun total => ?_
    split
    · trivial
    · refine Leaf.bind (leaf_require _ _) fun _ => ?_
      refine Leaf.bind (leaf_write rfl) fun _ => ?_
      exact Leaf.bind (leaf_write rfl) fun _ => leaf_write rfl

theorem leaf_transfer (c : Config) (block : Word) (source target : Address) (amount : Word) :
    (transfer c block source target amount).Leaf Plain := by
  refine Leaf.bind (leaf_require _ _) fun _ => ?_
  split
  · trivial
  · split
    · exact leaf_perform rfl
    · refine Leaf.bind (leaf_checkCallCap c amount) fun _ => ?_
      refine Leaf.bind (leaf_track c block amount) fun _ => ?_
      refine Leaf.bind (leaf_perform rfl) fun _ => ?_
      refine Leaf.bind (leaf_write rfl) fun _ => ?_
      refine Leaf.bind (leaf_write rfl) fun _ => ?_
      refine Leaf.bind (leaf_write rfl) fun debited => Leaf.bind (leaf_require _ _) fun _ => ?_
      refine Leaf.bind (leaf_write rfl) fun credited => Leaf.bind (leaf_require _ _) fun _ => ?_
      exact leaf_perform rfl

theorem leaf_updateAllowlist (c : Config) (caller a : Address) (listed : Bool) :
    (updateAllowlist c caller a listed).Leaf Plain := by
  refine Leaf.bind (leaf_charge rfl) fun _ => Leaf.bind (leaf_require _ _) fun _ => ?_
  refine Leaf.bind ?_ fun _ => leaf_perform rfl
  exact Leaf.bind (leaf_write rfl) fun _ => leaf_write rfl

theorem leaf_execute (c : Config) (caller : Address) (block : Word) (call : TokenDualityCall) :
    (execute c caller block call).Leaf Plain := by
  cases call with
  | transfer source target amount =>
    refine Leaf.bind (leaf_charge rfl) fun _ => ?_
    refine Leaf.bind (leaf_authorize c caller) fun _ => ?_
    refine Leaf.bind (leaf_requireWritable rfl) fun _ => ?_
    exact Leaf.bind (leaf_transfer c block source target amount) fun _ => trivial
  | addToAllowList a | removeFromAllowList a =>
    exact Leaf.bind (leaf_updateAllowlist c caller a _) fun _ => trivial
  | allowlist a =>
    refine Leaf.bind (leaf_charge rfl) fun _ => ?_
    exact Leaf.bind (leaf_isAllowlisted a) fun _ => trivial
  | transferredThisBlock =>
    refine Leaf.bind (leaf_charge rfl) fun _ => ?_
    exact Leaf.bind (leaf_transferredIn block) fun _ => trivial
  | perCallCap | perBlockCap => exact Leaf.bind (leaf_charge rfl) fun _ => trivial

/-- The routine makes no calls, abandons no frame and handles no snapshots. -/
theorem leaf_routine (c : Config) (input : Bytes) : (routine c input).Leaf Plain := by
  refine Leaf.bind (leaf_perform rfl) fun frame => Leaf.bind (leaf_perform rfl) fun _ => ?_
  split
  · trivial
  · exact Leaf.bind (leaf_perform rfl) fun chain => leaf_execute c _ _ _

end

end Native.TokenDuality

end PrecompileHost
