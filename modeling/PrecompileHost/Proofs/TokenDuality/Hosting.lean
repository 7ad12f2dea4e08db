import PrecompileHost.Proofs.Asked
import PrecompileHost.Proofs.Session
import PrecompileHost.Proofs.TokenDuality.Effects

/-!
Settings in which nobody but the token duality precompile writes the storage of its account. What a
call of the precompile comes to can be read off its record, so a relation between storages is a
chronicle as soon as it agrees with the effects of the precompile's methods.
-/

namespace PrecompileHost.Native.TokenDuality

/-- Only the precompile is active at its address, if anything is, and no routine elsewhere handles
snapshots or writes the precompile's storage. -/
structure Hosted (c : Config) (active : Registry) : Prop where
  own : ∀ p, active.get? address = some p → p = precompile c
  others : ∀ a routine, a ≠ address → active.get? a = some (.stateful routine) → ∀ input,
    (routine input).Only (Operation.SparesStorage address)

theorem hosted_alone (c : Config) : Hosted c ((∅ : Registry).insert address (precompile c)) where
  own p hp := by
    rw [WordMap.get?_insert_self] at hp
    exact (Option.some.inj hp).symm
  others a routine ha hactive := by
    rw [WordMap.get?_insert, if_neg ha] at hactive
    cases hactive

/-- A routine may join that handles no snapshots and leaves the precompile's storage alone. -/
theorem Hosted.insert {c : Config} {active : Registry} (h : Hosted c active) {a : Address}
    (ha : a ≠ address) {routine : Bytes → Program Bytes}
    (hroutine : ∀ input, (routine input).Only (Operation.SparesStorage address)) :
    Hosted c (active.insert a (.stateful routine)) where
  own p hp := by
    rw [WordMap.get?_insert, if_neg ha.symm] at hp
    exact h.own p hp
  others b text hb hactive := by
    rw [WordMap.get?_insert] at hactive
    split at hactive
    · cases hactive
      exact hroutine
    · exact h.others b text hb hactive

/-- The call that the precompile was asked for, if the record is one of a frame of its own. -/
abbrev asked? (r : CallRecord) : Option TokenDualityCall :=
  r.asked? address TokenDualityCall.decode

variable {s : Setting} {c : Config} {T : Accounts → List CallRecord → Accounts → Prop}

theorem unnoticed_of_spares
    (same : ∀ {as bs : Accounts}, (∀ key, bs.storage address key = as.storage address key) →
      T as [] bs)
    {o : Operation} (ho : o.SparesStorage address) : o.Unnoticed T := by
  cases o with
  | write m => exact ⟨ho.1, fun t => same (Mutation.storage_apply ho t)⟩
  | observe | chain | useGas | read | invalidate | log => trivial

/-- What is to be shown of a relation between storages: it holds where the storage stays, it can be
told piece by piece, and each effect of the precompile is what it says of the call's record. -/
theorem Hosted.chronicle (hs : Hosted c s.active)
    (same : ∀ {as bs : Accounts}, (∀ key, bs.storage address key = as.storage address key) →
      T as [] bs)
    (trans : ∀ {as bs cs calls calls'}, T as calls bs → T bs calls' cs →
      T as (calls ++ calls') cs)
    (elsewhere : ∀ (r : CallRecord) as, asked? r = none → T as [r] as)
    (effected : ∀ {caller readOnly as call output bs} (r : CallRecord), asked? r = some call →
      Effected c caller s.block.number readOnly as call output bs → T as [r] bs) :
    s.Chronicle T where
  refl as := same fun _ => rfl
  trans := trans
  transfer htransfer := same (Accounts.storage_of_transfer? htransfer)
  frameless r as hframeless := elsewhere r as (r.asked?_of_frameless hframeless)
  routines := by
    intro a routine hactive
    by_cases ha : a = address
    · -- only the precompile itself is active there
      subst ha
      obtain rfl : routine = TokenDuality.routine c := by
        have hown := hs.own _ hactive
        cases hown
        rfl
      refine .leaf (leaf_routine c) fun h frame input gas w output hsetting hok r htarget hinput
        hhandling => ?_
      obtain ⟨call, hdecode, as, heffected, -, hafter⟩ :=
        yields_routine.mp (Program.yields_of_ending hok)
      rw [hafter, World.accounts_holding]
      rw [hsetting] at heffected
      rw [← hinput] at hdecode
      exact effected r (CallRecord.asked?_of_entered htarget hhandling hdecode) heffected
    · refine .unnoticed (fun input => ?_) fun r as htarget => ?_
      · exact (hs.others a routine ha hactive input).mono fun o => unnoticed_of_spares same
      · exact elsewhere r as (CallRecord.asked?_of_target_ne (htarget ▸ ha))

end PrecompileHost.Native.TokenDuality
