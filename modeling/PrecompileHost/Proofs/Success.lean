import PrecompileHost.Proofs.Execution

/-!
Success taken apart. A sequence succeeds exactly if both of its parts do, one after the other, and
a step succeeds exactly if what it asks for is met; so the success of a routine can be traced back
through its text to everything that the routine has checked and done.
-/

namespace PrecompileHost

/-- The world with other accounts. -/
def World.holding (w : World) (as : Accounts) : World :=
  { w with state := { w.state with accounts := as } }

@[simp] theorem World.accounts_holding (w : World) (as : Accounts) :
    (w.holding as).state.accounts = as := rfl

@[simp] theorem World.holding_holding (w : World) (as bs : Accounts) :
    (w.holding as).holding bs = w.holding bs := rfl

namespace Program

variable {α β : Type}

/-- Started with `gas` in world `w`, the routine succeeds with `a` and leaves `left` and `after`. -/
structure Yields (h : Host) (frame : Frame) (p : Program α) (gas : Gas) (w : World) (a : α)
    (left : Gas) (after : World) : Prop where
  success : (p.run h frame gas w).ending = .returned (.ok a)
  gasLeft : (p.run h frame gas w).gas = left
  worldAfter : (p.run h frame gas w).world = after

variable {h : Host} {frame : Frame} {gas left : Gas} {w after : World}

theorem yields_of_ending {p : Program α} {a : α}
    (hp : (p.run h frame gas w).ending = .returned (.ok a)) :
    p.Yields h frame gas w a (p.run h frame gas w).gas (p.run h frame gas w).world :=
  ⟨hp, rfl, rfl⟩

@[simp] theorem yields_pure {a b : α} :
    (Program.pure a).Yields h frame gas w b left after ↔ b = a ∧ left = gas ∧ after = w := by
  constructor
  · rintro ⟨⟨⟩, rfl, rfl⟩
    exact ⟨rfl, rfl, rfl⟩
  · rintro ⟨rfl, rfl, rfl⟩
    exact ⟨rfl, rfl, rfl⟩

@[simp] theorem yields_fail {e : CallError} {a : α} :
    ¬ (Program.fail e).Yields h frame gas w a left after := by
  rintro ⟨⟨⟩, -, -⟩

theorem yields_perform {o : Operation} {next : o.Answer → Program α} {a : α} :
    (Program.perform o next).Yields h frame gas w a left after ↔
      (next (h.perform frame gas w o).1).Yields h frame (h.perform frame gas w o).2.1
        (h.perform frame gas w o).2.2 a left after :=
  ⟨fun ⟨hending, hgas, hworld⟩ => ⟨hending, hgas, hworld⟩,
    fun ⟨hending, hgas, hworld⟩ => ⟨hending, hgas, hworld⟩⟩

theorem yields_call_of_declined {call : NestedCall} {e : CallError}
    {next : CallResult → Program α} {a : α} (ha : h.attempt frame gas w call = .declined e) :
    (Program.call call next).Yields h frame gas w a left after ↔
      (next (.error e)).Yields h frame gas w a left after := by
  have hrun := run_call_of_declined h frame gas w next ha
  constructor
  · rintro ⟨hending, hgas, hworld⟩
    rw [hrun] at hending hgas hworld
    exact ⟨hending, hgas, hworld⟩
  · rintro ⟨hending, hgas, hworld⟩
    constructor <;> rw [hrun] <;> assumption

theorem not_yields_call_of_aborted {call : NestedCall} {m : String} {reserved : Gas}
    {d : Dispatched} {next : CallResult → Program α} {a : α}
    (ha : h.attempt frame gas w call = .aborted m reserved d) :
    ¬ (Program.call call next).Yields h frame gas w a left after := by
  rintro ⟨hending, -, -⟩
  rw [run_call_of_aborted _ _ _ _ _ ha] at hending
  cases hending

theorem yields_call_of_returned {call : NestedCall} {result : CallResult} {reserved : Gas}
    {d : Dispatched} {next : CallResult → Program α} {a : α}
    (ha : h.attempt frame gas w call = .returned result reserved d) :
    (Program.call call next).Yields h frame gas w a left after ↔
      (next result).Yields h frame reserved d.world a left after := by
  have hrun := run_call_of_returned h frame gas w next ha
  constructor
  · rintro ⟨hending, hgas, hworld⟩
    rw [hrun] at hending hgas hworld
    exact ⟨hending, hgas, hworld⟩
  · rintro ⟨hending, hgas, hworld⟩
    constructor <;> rw [hrun] <;> assumption

/-- A sequence succeeds if its first part does and then, from where that ends, its second. -/
theorem yields_bind {p : Program α} {f : α → Program β} {b : β} :
    (p >>= f).Yields h frame gas w b left after ↔
      ∃ a between world, p.Yields h frame gas w a between world ∧
        (f a).Yields h frame between world b left after := by
  induction p generalizing gas w with
  | pure a => simp [and_assoc]
  | fail e => simp
  | abort m =>
    constructor
    · rintro ⟨⟨⟩, -, -⟩
    · rintro ⟨a, between, world, ⟨⟨⟩, -, -⟩, -⟩
  | perform o next ih =>
    rw [perform_bind, yields_perform, ih]
    simp only [yields_perform]
  | call call next ih =>
    -- what the nested call comes to does not depend on what the routine goes on to do
    rw [call_bind]
    cases ha : h.attempt frame gas w call with
    | declined e => simp only [yields_call_of_declined ha, ih]
    | aborted m reserved d =>
      simp only [not_yields_call_of_aborted ha, false_and, exists_false]
    | returned result reserved d => simp only [yields_call_of_returned ha, ih]

/-! ### Steps -/

@[simp] theorem yields_observe {seen : Observation} :
    observe.Yields h frame gas w seen left after ↔
      seen = frame.observe h.setting h.context gas ∧ left = gas ∧ after = w :=
  yields_perform.trans yields_pure

@[simp] theorem yields_chain {seen : ChainView} :
    chain.Yields h frame gas w seen left after ↔
      seen = h.setting.chainView ∧ left = gas ∧ after = w :=
  yields_perform.trans yields_pure

@[simp] theorem yields_read {q : Query} {answer : q.Answer} :
    (read q).Yields h frame gas w answer left after ↔
      answer = q.answer w.state.accounts ∧ left = gas ∧ after = w :=
  yields_perform.trans yields_pure

@[simp] theorem yields_log {event : Event} {u : Unit} :
    (log event).Yields h frame gas w u left after ↔ left = gas ∧ after = w := by
  refine (yields_perform.trans yields_pure).trans ?_
  exact and_iff_right rfl

@[simp] theorem yields_require {condition : Bool} {e : CallError} {u : Unit} :
    (require condition e).Yields h frame gas w u left after ↔
      condition = true ∧ left = gas ∧ after = w := by
  cases condition <;> simp [require]

@[simp] theorem yields_charge {amount : Gas} {u : Unit} :
    (charge amount).Yields h frame gas w u left after ↔
      Gas.sub? gas amount = some left ∧ after = w := by
  rw [charge, useGas, perform_bind, yields_perform, Host.perform]
  cases hgas : Gas.sub? gas amount with
  | none => simp
  | some rest => simp [eq_comm]

@[simp] theorem yields_requireWritable {u : Unit} :
    requireWritable.Yields h frame gas w u left after ↔
      h.context.readOnly = false ∧ left = gas ∧ after = w := by
  simp [requireWritable, yields_bind, and_assoc, Frame.observe]

@[simp] theorem yields_write {m : Mutation} {answer : m.Answer} :
    (write m).Yields h frame gas w answer left after ↔
      h.context.readOnly = false ∧ answer = (m.apply w.state).1 ∧ left = gas ∧
        after = { w with state := (m.apply w.state).2 } := by
  rw [write, write?, perform_bind, yields_perform, Host.perform]
  cases h.context.readOnly <;> simp

/-! ### Reads and writes of single kinds

The type of an answer is computed from the query or the mutation, so each kind has a statement of
its own, in which that type has been computed. -/

@[simp] theorem yields_readStorage {a : Address} {key value : Word} :
    @Yields Word h frame (read (.storage a key)) gas w value left after ↔
      value = w.state.accounts.storage a key ∧ left = gas ∧ after = w := by
  rw [yields_read]
  rfl

@[simp] theorem yields_createAccount {a : Address} {u : Unit} :
    @Yields Unit h frame (write (.createAccount a)) gas w u left after ↔
      h.context.readOnly = false ∧ left = gas ∧
        after = w.holding (w.state.accounts.create a) := by
  rw [yields_write]
  exact and_congr_right fun _ => and_iff_right rfl

@[simp] theorem yields_setStorage {a : Address} {key value : Word} {u : Unit} :
    @Yields Unit h frame (write (.setStorage a key value)) gas w u left after ↔
      h.context.readOnly = false ∧ left = gas ∧
        after = w.holding (w.state.accounts.setStorage a key value) := by
  rw [yields_write]
  exact and_congr_right fun _ => and_iff_right rfl

theorem perform?_eq (t : State) (changed? : Option Accounts) :
    Mutation.perform? t changed? =
      (changed?.isSome, { t with accounts := changed?.getD t.accounts }) := by
  cases changed? <;> rfl

@[simp] theorem yields_credit {a : Address} {amount : Word} {done : Bool} :
    @Yields Bool h frame (write (.credit a amount)) gas w done left after ↔
      h.context.readOnly = false ∧ done = (w.state.accounts.credit? a amount).isSome ∧
        left = gas ∧
          after = w.holding ((w.state.accounts.credit? a amount).getD w.state.accounts) := by
  rw [yields_write, Mutation.apply, perform?_eq]
  rfl

@[simp] theorem yields_debit {a : Address} {amount : Word} {done : Bool} :
    @Yields Bool h frame (write (.debit a amount)) gas w done left after ↔
      h.context.readOnly = false ∧ done = (w.state.accounts.debit? a amount).isSome ∧
        left = gas ∧
          after = w.holding ((w.state.accounts.debit? a amount).getD w.state.accounts) := by
  rw [yields_write, Mutation.apply, perform?_eq]
  rfl

end Program

end PrecompileHost
