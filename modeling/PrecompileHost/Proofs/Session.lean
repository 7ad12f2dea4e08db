import PrecompileHost.Proofs.Chronicle

/-!
Sequences of steps that are taken with one engine: calls of every type, transactions, and moves to
other blocks and contexts. Calls and transactions are dispatched alike, so what one dispatched
call comes to is all that a step can do to the state; sequences are then an induction.
-/

namespace PrecompileHost

namespace Engine

inductive Step
  | call (r : Request)
  | transact (origin target : Address) (input : Bytes) (gas : Gas) (value : Word)
  | enterBlock (block : Block)
  | enterContext (context : CallContext)

/-- The call that a step makes. -/
def made? (e : Engine) : Step → Option Dispatched
  | .call r => some (e.dispatch r)
  | .transact origin target input gas value => (e.transact origin target input gas value).call
  | .enterBlock _ | .enterContext _ => none

def step (e : Engine) : Step → Engine
  | .call r => e.after (e.dispatch r)
  | .transact origin target input gas value => (e.transact origin target input gas value).engine
  | .enterBlock block => e.withBlock block
  | .enterContext context => e.withContext context

def run (e : Engine) : List Step → Engine
  | [] => e
  | s :: steps => (e.step s).run steps

/-- The calls made by a step that stand at its end. -/
def stands (e : Engine) (s : Step) : List CallRecord :=
  match e.made? s with
  | some d => d.standing
  | none => []

/-- The calls made by steps that stand at the end, each with the number of its block. -/
def standing (e : Engine) : List Step → List (Word × CallRecord)
  | [] => []
  | s :: steps => (e.stands s).map (e.setting.block.number, ·) ++ (e.step s).standing steps

/-- Those calls of a log that were made in one block. -/
def inBlock (block : Word) (log : List (Word × CallRecord)) : List CallRecord :=
  (log.filter (·.1 = block)).map (·.2)

/-- The step leads to no earlier block. -/
def Advances (e : Engine) : Step → Prop
  | .enterBlock block => e.setting.block.number ≤ block.number
  | .call _ | .transact .. | .enterContext _ => True

instance (e : Engine) : (s : Step) → Decidable (e.Advances s)
  | .enterBlock block => inferInstanceAs (Decidable (e.setting.block.number ≤ block.number))
  | .call _ | .transact .. | .enterContext _ => isTrue trivial

/-- No step leads to a block earlier than the one before it. -/
def Ascends (e : Engine) : List Step → Prop
  | [] => True
  | s :: steps => e.Advances s ∧ (e.step s).Ascends steps

def decAscends : (e : Engine) → (steps : List Step) → Decidable (e.Ascends steps)
  | _, [] => isTrue trivial
  | e, s :: steps =>
    have := decAscends (e.step s) steps
    inferInstanceAs (Decidable (e.Advances s ∧ (e.step s).Ascends steps))

instance (e : Engine) (steps : List Step) : Decidable (e.Ascends steps) :=
  e.decAscends steps

theorem inBlock_append (block : Word) (log later : List (Word × CallRecord)) :
    inBlock block (log ++ later) = inBlock block log ++ inBlock block later := by
  rw [inBlock, List.filter_append, List.map_append]
  rfl

theorem inBlock_map (block : Word) (calls : List CallRecord) :
    inBlock block (calls.map (block, ·)) = calls := by
  induction calls with
  | nil => rfl
  | cons call calls ih => simpa [inBlock] using ih

theorem inBlock_eq_nil {block : Word} {log : List (Word × CallRecord)}
    (h : ∀ entry ∈ log, entry.1 ≠ block) : inBlock block log = [] := by
  rw [inBlock, List.filter_eq_nil_iff.mpr fun entry hmem => by simpa using h entry hmem]
  rfl

theorem calls_standing_cons (e : Engine) (s : Step) (steps : List Step) :
    (e.standing (s :: steps)).map (·.2) =
      e.stands s ++ ((e.step s).standing steps).map (·.2) := by
  rw [standing, List.map_append, List.map_map]
  exact congrArg (· ++ _) (List.map_id _)

variable {e : Engine} {s : Step}

@[simp] theorem active_step (e : Engine) (s : Step) :
    (e.step s).setting.active = e.setting.active := by
  cases s with
  | transact origin target input gas value =>
    unfold step transact
    dsimp only
    split <;> rfl
  | call | enterBlock | enterContext => rfl

/-- A call of a step is dispatched from the state before the step, in the same block, and leads to
the state after the step. -/
theorem dispatch_of_made? {d : Dispatched} (h : e.made? s = some d) :
    (e.step s).setting.block = e.setting.block ∧
    (e.step s).world.state = d.world.state ∧
      ∃ (setting : Setting) (levels : Nat) (c : CallContext) (r : Request) (w : World),
        setting.active = e.setting.active ∧ setting.block = e.setting.block ∧
          w.state = e.world.state ∧ d = PrecompileHost.dispatch setting levels c r w := by
  cases s with
  | call r =>
    cases h
    exact ⟨rfl, rfl, _, _, _, _, _, rfl, rfl, rfl, rfl⟩
  | transact origin target input gas value =>
    cases h
    refine ⟨?_, ?_, ?_⟩
    · unfold step transact
      dsimp only
      split <;> rfl
    · rw [call_transact]
      exact e.state_transact ..
    · rw [call_transact]
      exact ⟨(e.beginTransaction origin).setting, _, _, _, (e.beginTransaction origin).world, rfl,
        rfl, rfl, rfl⟩
  | enterBlock | enterContext => cases h

/-- Where no active routine handles snapshots, a step's call is atomic if it returns. -/
theorem atomic_of_made? (hactive : e.setting.active.Only fun _ o => o.handlesSnapshots = false)
    {d : Dispatched} {outcome : Outcome} (h : e.made? s = some d)
    (hreturned : d.record.ending = .returned outcome) : d.Atomic e.world.state outcome := by
  obtain ⟨-, -, setting, levels, c, r, w, hsame, -, hstate, rfl⟩ := dispatch_of_made? h
  rw [← hstate]
  exact dispatch_atomic setting levels c r w outcome hreturned
    (dispatch_settlesOwn (hsame ▸ hactive) levels c r w)

theorem told_of_made? {T : Accounts → List CallRecord → Accounts → Prop}
    (hT : ∀ setting : Setting, setting.active = e.setting.active →
      setting.block = e.setting.block → setting.Chronicle T)
    {d : Dispatched} (h : e.made? s = some d) : d.Told T e.world.state.accounts := by
  obtain ⟨-, -, setting, levels, c, r, w, hactive, hblock, hstate, rfl⟩ := dispatch_of_made? h
  rw [← hstate]
  exact (hT setting hactive hblock).told_dispatch levels c r w

/-- An invariant of an engine and of the calls that stand holds after any steps if it holds after
each. -/
theorem run_invariant {I : Engine → List (Word × CallRecord) → Prop}
    (hstep : ∀ (e : Engine) log s, e.Advances s → I e log →
      I (e.step s) (log ++ (e.stands s).map (e.setting.block.number, ·)))
    (steps : List Step) (e : Engine) (log : List (Word × CallRecord)) (hascends : e.Ascends steps)
    (h : I e log) : I (e.run steps) (log ++ e.standing steps) := by
  induction steps generalizing e log with
  | nil =>
    rw [standing, List.append_nil]
    exact h
  | cons s steps ih =>
    rw [standing, ← List.append_assoc]
    exact ih (e.step s) _ hascends.2 (hstep e log s hascends.1 h)

end Engine

end PrecompileHost
