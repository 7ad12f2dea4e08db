import Mathlib.Data.List.Induction
import PrecompileHost.Proofs.Atomicity

/-!
Snapshots of a state that is operated on by hand, in any order and with any numbers. Which numbers
are live is told by the history alone: a number is live from the snapshot that has answered it on,
until a step uses it or a smaller one. At every time those are the numbers below the count of
snapshots; going back to a live number restores the state in which its snapshot was taken, and
releasing it restores the snapshots of that time.
-/

namespace PrecompileHost.State

/-! ### Operations in sequence -/

/-- An operation on a state. -/
inductive Step
  | write (mutation : Mutation)
  | insert (a : Address) (account : Account)
  deriving DecidableEq

/-- The state after an operation. -/
def step (t : State) : Step → State
  | .write m => (m.apply t).2
  | .insert a account => t.insertAccount a account

/-- The state after operations in sequence. -/
def run (t : State) (steps : List Step) : State :=
  steps.foldl step t

/-- The number of the snapshot that the operation releases or goes back to. -/
def Step.settles? : Step → Option Nat
  | .write m => m.settles?
  | .insert _ _ => none

/-- None of the operations releases snapshot `id` or an earlier one, or goes back to it. -/
def Spare (id : Nat) (steps : List Step) : Prop :=
  ∀ step ∈ steps, ∀ i ∈ step.settles?, id < i

instance (id : Nat) (steps : List Step) : Decidable (Spare id steps) :=
  inferInstanceAs (Decidable (∀ step ∈ steps, ∀ i ∈ step.settles?, id < i))

/-- `Live t steps id`: after operations on `t`, snapshot `id` was there at the start or has been
taken since, and no later operation has used its number or a smaller one. -/
inductive Live (t : State) : List Step → Nat → Prop
  | found {id : Nat} (h : id < t.snapshots.length) : Live t [] id
  | taken (steps : List Step) :
      Live t (steps ++ [.write .snapshot]) (Mutation.snapshot.apply (t.run steps)).1
  | kept {steps : List Step} {step : Step} {id : Nat} (h : Live t steps id)
      (hspare : ∀ i ∈ step.settles?, id < i) : Live t (steps ++ [step]) id

variable {t : State} {id : Nat} {steps : List Step}

theorem run_append (t : State) (earlier later : List Step) :
    t.run (earlier ++ later) = (t.run earlier).run later :=
  List.foldl_append

theorem run_concat (t : State) (steps : List Step) (step : Step) :
    t.run (steps ++ [step]) = (t.run steps).step step := by
  rw [run_append]
  rfl

/-! ### What an operation does to the snapshots -/

theorem snapshots_revertTo (t : State) (id : Nat) :
    (t.revertTo id).snapshots = t.snapshots.take id := by
  by_cases hlive : id < t.snapshots.length
  · rw [revertTo, List.getElem?_eq_getElem hlive]
  · rw [t.revertTo_of_length_le (Nat.not_lt.mp hlive),
      List.take_of_length_le (Nat.not_lt.mp hlive)]

/-- Going back and releasing leave the same snapshots. -/
theorem snapshots_step_of_settles {step : Step} {i : Nat} (h : step.settles? = some i)
    (t : State) : (t.step step).snapshots = t.snapshots.take i := by
  cases step with
  | insert a account => cases h
  | write m =>
    cases m with
    | revertTo id =>
      cases h
      exact t.snapshots_revertTo i
    | commit id =>
      cases h
      rfl
    | createAccount | setBalance | setNonce | setStorage | credit | debit | snapshot => cases h

theorem snapshots_step_of_not_settles {step : Step} (h : step.settles? = none)
    (htaken : step ≠ .write .snapshot) (t : State) : (t.step step).snapshots = t.snapshots := by
  cases step with
  | insert a account => rfl
  | write m =>
    cases m with
    | createAccount | setBalance | setNonce | setStorage => rfl
    | credit a amount =>
      change (Mutation.perform? t (t.accounts.credit? a amount)).2.snapshots = _
      cases t.accounts.credit? a amount <;> rfl
    | debit a amount =>
      change (Mutation.perform? t (t.accounts.debit? a amount)).2.snapshots = _
      cases t.accounts.debit? a amount <;> rfl
    | snapshot => exact absurd rfl htaken
    | revertTo | commit => cases h

/-- Snapshots stay where they are beneath numbers that are not used. -/
theorem prefix_step {below : List Accounts} {step : Step} (hbelow : below <+: t.snapshots)
    (hspare : ∀ i ∈ step.settles?, below.length ≤ i) : below <+: (t.step step).snapshots := by
  cases step with
  | write m => exact m.prefix_apply hbelow hspare
  | insert a account => exact hbelow

theorem prefix_run {below : List Accounts} (hbelow : below <+: t.snapshots)
    (hspare : ∀ step ∈ steps, ∀ i ∈ step.settles?, below.length ≤ i) :
    below <+: (t.run steps).snapshots := by
  induction steps generalizing t with
  | nil => exact hbelow
  | cons step steps ih =>
    obtain ⟨hfirst, hrest⟩ := List.forall_mem_cons.mp hspare
    exact ih (prefix_step hbelow hfirst) hrest

/-! ### Live numbers -/

theorem Live.lt_length (h : Live t steps id) : id < (t.run steps).snapshots.length := by
  induction h with
  | found h => exact h
  | taken steps =>
    rw [run_concat]
    change (t.run steps).snapshots.length < ((t.run steps).snapshots ++ [_]).length
    simp
  | @kept steps step id _ hspare ih =>
    -- the snapshots up to this one are beneath whatever number the step uses
    have hbelow := List.take_prefix (id + 1) (t.run steps).snapshots
    have hlength : ((t.run steps).snapshots.take (id + 1)).length = id + 1 :=
      List.length_take_of_le ih
    have hkept := prefix_step hbelow fun i hi => by
      rw [hlength]
      exact hspare i hi
    rw [run_concat]
    calc
      id < ((t.run steps).snapshots.take (id + 1)).length := by
        rw [hlength]
        exact Nat.lt_succ_self id
      _ ≤ ((t.run steps).step step).snapshots.length := hkept.length_le

theorem live_of_lt_length (steps : List Step) :
    ∀ id < (t.run steps).snapshots.length, Live t steps id := by
  induction steps using List.reverseRecOn with
  | nil => exact fun id h => .found h
  | append_singleton steps step ih =>
    intro id hid
    rw [run_concat] at hid
    cases hsettles : step.settles? with
    | some i =>
      rw [snapshots_step_of_settles hsettles, List.length_take, Nat.lt_min] at hid
      refine .kept (ih id hid.2) fun j hj => ?_
      rw [hsettles] at hj
      cases hj
      exact hid.1
    | none =>
      have hspare : ∀ i ∈ step.settles?, id < i := by simp [hsettles]
      by_cases htaken : step = .write .snapshot
      · subst htaken
        have hlast : id < (t.run steps).snapshots.length + 1 := by
          simpa [State.step, Mutation.apply] using hid
        rcases Nat.lt_succ_iff_lt_or_eq.mp hlast with hbefore | rfl
        · exact .kept (ih id hbefore) hspare
        · exact .taken steps
      · rw [snapshots_step_of_not_settles hsettles htaken] at hid
        exact .kept (ih id hid) hspare

/-- The live numbers are those below the count of snapshots. -/
theorem live_iff : Live t steps id ↔ id < (t.run steps).snapshots.length :=
  ⟨Live.lt_length, live_of_lt_length steps id⟩

/-! ### Going back and releasing -/

/-- What snapshot `id` is good for that was taken in state `before`. -/
structure Nests (t : State) (id : Nat) (before : State) : Prop where
  reverted : t.step (.write (.revertTo id)) = before
  committed : t.step (.write (.commit id)) = { before with accounts := t.accounts }

/-- The operations change nothing. -/
structure Inert (t : State) (id : Nat) : Prop where
  reverted : t.step (.write (.revertTo id)) = t
  committed : t.step (.write (.commit id)) = t

theorem nests_run {later : List Step} (before : State)
    (hspare : Spare before.snapshots.length later) :
    (before.snapshot.2.run later).Nests before.snapshots.length before := by
  have hbelow : before.snapshots ++ [before.accounts] <+:
      (before.snapshot.2.run later).snapshots := by
    refine prefix_run (List.prefix_refl _) fun step hstep i hi => ?_
    rw [List.length_append]
    exact hspare step hstep i hi
  obtain ⟨inner, hinner⟩ := hbelow
  rw [List.append_assoc, List.singleton_append] at hinner
  exact ⟨before.revertTo_eq_of_snapshots hinner.symm, before.commit_eq_of_snapshots hinner.symm⟩

theorem inert_of_length_le (h : t.snapshots.length ≤ id) : t.Inert id :=
  ⟨t.revertTo_of_length_le h, t.commit_of_length_le h⟩

/-- Whatever is done to a state after a snapshot, as long as no step uses its number or a smaller
one, the number still means that snapshot. The live numbers are all those below the one that the
next snapshot answers, which is their count, and using any other changes nothing. -/
theorem snapshots_nest (t : State) :
    (∀ earlier later id, (Mutation.snapshot.apply (t.run earlier)).1 = id → Spare id later →
      (t.run (earlier ++ .write .snapshot :: later)).Nests id (t.run earlier)) ∧
    ∀ steps,
      (Mutation.snapshot.apply (t.run steps)).1 = (t.run steps).snapshots.length ∧
      (∀ id, Live t steps id ↔ id < (t.run steps).snapshots.length) ∧
      ∀ id, ¬ Live t steps id → (t.run steps).Inert id := by
  constructor
  · rintro earlier later id rfl hspare
    rw [run_append]
    exact nests_run (t.run earlier) hspare
  · intro steps
    refine ⟨rfl, fun id => live_iff, fun id hlive => inert_of_length_le ?_⟩
    exact Nat.not_lt.mp (mt live_iff.mpr hlive)

namespace Nesting

/-- A balance, a snapshot that stays, and another write. -/
def earlier : List Step :=
  [.write (.setBalance 0xa1 10), .write .snapshot, .write (.setStorage 0xa1 1 7)]

/-- Inner snapshots that are gone back to, released under a number that is in use for the second
time, and left behind, with numbers in between that mean nothing. -/
def later : List Step :=
  [.write (.credit 0xa1 5), .write .snapshot, .write (.setStorage 0xa1 1 0),
    .write (.revertTo 2), .write .snapshot, .insert 0xb2 { nonce := 3 }, .write .snapshot,
    .write (.commit 2), .write (.revertTo 9), .write .snapshot, .write (.debit 0xa1 12)]

/-- Snapshot 1 is still the one that was taken between the two. -/
theorem state_snapshots_nest :
    Spare 1 later ∧
      (State.run {} (earlier ++ .write .snapshot :: later)).Nests 1 (State.run {} earlier) ∧
      Live {} (earlier ++ .write .snapshot :: later) 2 ∧
      ¬ Live {} (earlier ++ .write .snapshot :: later) 3 ∧
      (State.run {} (earlier ++ .write .snapshot :: later)).Inert 3 ∧
      (State.run {} (earlier ++ .write .snapshot :: later)).accounts.balance 0xa1 = 3 := by
  obtain ⟨hnests, hrun⟩ := snapshots_nest {}
  obtain ⟨-, hlive, hinert⟩ := hrun (earlier ++ .write .snapshot :: later)
  have hspare : Spare 1 later := by decide
  have hcount :
      (State.run {} (earlier ++ .write .snapshot :: later)).snapshots.length = 3 := by
    decide +kernel
  have hdead : ¬ Live {} (earlier ++ .write .snapshot :: later) 3 := by
    rw [hlive, hcount]
    decide
  refine ⟨hspare, hnests earlier later 1 rfl hspare, ?_, hdead, hinert 3 hdead, ?_⟩
  · rw [hlive, hcount]
    decide
  · decide +kernel

end Nesting

end PrecompileHost.State
