import Mathlib.Algebra.Ring.Nat
import PrecompileHost.Proofs.TokenDuality.Hosting

/-!
The cap on each block's total. The total on record is the sum of what the transfers of the block
that stand have moved, whoever made them and however they were nested: a failure around a transfer
takes its amount off the record together with the transfer. A transfer that would exceed the cap
fails, and a block that is new has nothing on record.
-/

namespace PrecompileHost.Native.TokenDuality

/-- The tokens that a call moves if it succeeds. A transfer within one account moves none. -/
def moved : TokenDualityCall → Nat
  | .transfer source target amount => if source = target then 0 else amount.toNat
  | _ => 0

/-- The tokens that a recorded call has moved, if it stands. -/
def movedBy (r : CallRecord) : Nat :=
  ((asked? r).map moved).getD 0

def movedByAll (calls : List CallRecord) : Nat :=
  (calls.map movedBy).sum

theorem movedByAll_append (calls later : List CallRecord) :
    movedByAll (calls ++ later) = movedByAll calls + movedByAll later := by
  simp [movedByAll]

theorem movedByAll_singleton {r : CallRecord} {call : TokenDualityCall} (h : asked? r = some call) :
    movedByAll [r] = moved call := by
  simp [movedByAll, movedBy, h]

theorem movedByAll_elsewhere {r : CallRecord} (h : asked? r = none) : movedByAll [r] = 0 := by
  simp [movedByAll, movedBy, h]

/-- How calls in a block change the record: their amounts are added, the block is stamped on the
record if anything is, and the total stays within the cap. -/
structure Counted (block cap : Word) (as : Accounts) (calls : List CallRecord) (bs : Accounts) :
    Prop where
  total : (recorded bs block).toNat = (recorded as block).toNat + movedByAll calls
  stamp : bs.storage address blockSlot = as.storage address blockSlot ∨
    bs.storage address blockSlot = block
  capped : recorded as block ≤ cap → recorded bs block ≤ cap

namespace Counted

variable {block cap : Word} {as bs cs : Accounts} {calls calls' : List CallRecord}

theorem unchanged (htotal : recorded bs block = recorded as block)
    (hstamp : bs.storage address blockSlot = as.storage address blockSlot)
    (hmoved : movedByAll calls = 0) : Counted block cap as calls bs where
  total := by rw [htotal, hmoved, Nat.add_zero]
  stamp := .inl hstamp
  capped hle := by
    rw [htotal]
    exact hle

theorem same (h : ∀ key, bs.storage address key = as.storage address key) :
    Counted block cap as [] bs :=
  unchanged (recorded_congr h block) (h blockSlot) rfl

theorem trans (h : Counted block cap as calls bs) (h' : Counted block cap bs calls' cs) :
    Counted block cap as (calls ++ calls') cs where
  total := by
    have htotal := h.total
    have htotal' := h'.total
    rw [movedByAll_append]
    omega
  stamp := by
    rcases h'.stamp with hsame | hblock
    · rw [hsame]
      exact h.stamp
    · exact .inr hblock
  capped hle := h'.capped (h.capped hle)

/-- A transfer that moves tokens is on record afterwards, within the cap. -/
theorem transferred {c : Config} (hcap : c.perBlockCap = some cap) {source target : Address}
    {amount : Word} (h : Transferred c block source target amount as bs) {r : CallRecord}
    (hasked : asked? r = some (.transfer source target amount)) :
    Counted block cap as [r] bs := by
  cases h with
  | stayed htarget hstay =>
    refine unchanged rfl rfl ?_
    rw [movedByAll_singleton hasked, moved]
    rcases hstay with rfl | rfl
    · simp
    · rw [if_pos rfl]
  | moved htarget hamount hne hcallCap htracked hdebit hcredit =>
    cases htracked with
    | uncapped hnone => simp [hcap] at hnone
    | @capped cap' total hsome htotal hle =>
      obtain rfl : cap = cap' := Option.some.inj (hcap.symm.trans hsome)
      -- moving the balances does not touch the record that was made before
      have hstorage : ∀ key, bs.storage address key =
          (record as block total).storage address key := storage_of_moved hdebit hcredit address
      have hrecorded : recorded bs block = total := by
        rw [recorded_congr hstorage, recorded_record]
      refine ⟨?_, .inr ?_, fun _ => ?_⟩
      · rw [movedByAll_singleton hasked, TokenDuality.moved, if_neg hne, hrecorded]
        exact Word.toNat_of_add?_eq_some htotal
      · rw [hstorage, blockSlot_record]
      · rw [hrecorded]
        exact hle

theorem updated {call : TokenDualityCall} {a : Address} {listed : Bool}
    (hupdate : update? call = some (a, listed)) {r : CallRecord} (hasked : asked? r = some call) :
    Counted block cap as [r] (enlist as a listed) := by
  refine unchanged (recorded_enlist as a listed block) (blockSlot_enlist as a listed) ?_
  rw [movedByAll_singleton hasked]
  cases call with
  | transfer => cases hupdate
  | _ => rfl

theorem effected {c : Config} (hcap : c.perBlockCap = some cap) {caller : Address}
    {readOnly : Bool} {call : TokenDualityCall} {output : Bytes} {r : CallRecord}
    (hasked : asked? r = some call)
    (h : Effected c caller block readOnly as call output bs) : Counted block cap as [r] bs := by
  cases h with
  | transferred _ _ htransferred => exact transferred hcap htransferred hasked
  | updated hupdate => exact updated hupdate hasked
  | viewed hview =>
    refine unchanged rfl rfl ?_
    rw [movedByAll_singleton hasked]
    cases call with
    | transfer => cases hview
    | _ => rfl

end Counted

variable {c : Config} {cap : Word}

theorem chronicle_counted (hcap : c.perBlockCap = some cap) {s : Setting}
    (hs : Hosted c s.active) : s.Chronicle (Counted s.block.number cap) :=
  hs.chronicle Counted.same Counted.trans
    (fun _ _ hnone => Counted.unchanged rfl rfl (movedByAll_elsewhere hnone))
    (fun _ hasked heffected => Counted.effected hcap hasked heffected)

/-! ### Sequences of steps -/

/-- What holds of an engine and of the calls that stand: what the transfers of the current block
have moved is on record, within the cap, and neither the record nor any of the calls is from a
later block. -/
structure OnRecord (c : Config) (cap : Word) (e : Engine) (log : List (Word × CallRecord)) :
    Prop where
  hosted : Hosted c e.setting.active
  total : (recorded e.world.state.accounts e.setting.block.number).toNat =
    movedByAll (Engine.inBlock e.setting.block.number log)
  stamp : e.world.state.accounts.storage address blockSlot ≤ e.setting.block.number
  capped : recorded e.world.state.accounts e.setting.block.number ≤ cap
  past : ∀ entry ∈ log, entry.1 ≤ e.setting.block.number

namespace OnRecord

variable {e : Engine} {log : List (Word × CallRecord)} {s : Engine.Step} {d : Dispatched}

/-- Where nothing has ever been stored, nothing is on record. -/
theorem fresh (hosted : Hosted c e.setting.active)
    (hfresh : ∀ key, e.world.state.accounts.storage address key = 0) : OnRecord c cap e [] := by
  have hrecorded : recorded e.world.state.accounts e.setting.block.number = 0 := by
    rw [recorded]
    split
    · exact hfresh totalSlot
    · rfl
  refine ⟨hosted, ?_, ?_, ?_, fun entry hmem => by cases hmem⟩
  · rw [hrecorded]
    rfl
  · rw [hfresh]
    exact BitVec.le_def.mpr (Nat.zero_le _)
  · rw [hrecorded]
    exact BitVec.le_def.mpr (Nat.zero_le _)

theorem told (hcap : c.perBlockCap = some cap) (h : OnRecord c cap e log)
    (hmade : e.made? s = some d) :
    d.Told (Counted e.setting.block.number cap) e.world.state.accounts := by
  refine Engine.told_of_made? (fun setting hactive hblock => ?_) hmade
  rw [← hblock]
  exact chronicle_counted hcap (hactive ▸ h.hosted)

theorem call (hcap : c.perBlockCap = some cap) (h : OnRecord c cap e log)
    (hmade : e.made? s = some d) :
    OnRecord c cap (e.step s) (log ++ d.standing.map (e.setting.block.number, ·)) := by
  obtain ⟨hblock, hstate, -⟩ := Engine.dispatch_of_made? hmade
  have hcounted := (h.told hcap hmade).ended
  rw [← hstate] at hcounted
  refine ⟨?_, ?_, ?_, ?_, ?_⟩
  · rw [Engine.active_step]
    exact h.hosted
  · rw [hblock, hcounted.total, h.total, Engine.inBlock_append, Engine.inBlock_map,
      movedByAll_append]
  · rw [hblock]
    rcases hcounted.stamp with hsame | hstamped
    · rw [hsame]
      exact h.stamp
    · rw [hstamped]
      exact BitVec.le_refl _
  · rw [hblock]
    exact hcounted.capped h.capped
  · intro entry hmem
    rw [hblock]
    rcases List.mem_append.mp hmem with hold | hnew
    · exact h.past entry hold
    · obtain ⟨record, -, rfl⟩ := List.mem_map.mp hnew
      exact BitVec.le_refl _

/-- A block that is new has nothing on record. -/
theorem enterBlock (h : OnRecord c cap e log) {block : Block}
    (hle : e.setting.block.number ≤ block.number) : OnRecord c cap (e.withBlock block) log := by
  by_cases hsame : block.number = e.setting.block.number
  · have htotal := h.total
    have hstamp := h.stamp
    have hcapped := h.capped
    have hpast := h.past
    rw [← hsame] at htotal hstamp hcapped hpast
    exact ⟨h.hosted, htotal, hstamp, hcapped, hpast⟩
  · -- what is on record and what stands are from blocks before this one
    have hlt : e.setting.block.number < block.number :=
      BitVec.lt_of_le_ne hle fun heq => hsame heq.symm
    have hearlier : ∀ {number : Word}, number ≤ e.setting.block.number →
        number ≠ block.number := by
      intro number hnumber heq
      rw [heq] at hnumber
      exact BitVec.not_lt.mpr hnumber hlt
    have hstamp := hearlier h.stamp
    have hrecorded : recorded e.world.state.accounts block.number = 0 := if_neg hstamp
    have hnone : Engine.inBlock block.number log = [] :=
      Engine.inBlock_eq_nil fun entry hmem => hearlier (h.past entry hmem)
    refine ⟨h.hosted, ?_, BitVec.le_trans h.stamp hle, ?_, fun entry hmem => ?_⟩
    · change (recorded e.world.state.accounts block.number).toNat = _
      rw [hrecorded, show (e.withBlock block).setting.block.number = block.number from rfl, hnone]
      rfl
    · change recorded e.world.state.accounts block.number ≤ cap
      rw [hrecorded]
      exact BitVec.le_def.mpr (Nat.zero_le _)
    · exact BitVec.le_trans (h.past entry hmem) hle

theorem step (hcap : c.perBlockCap = some cap) (h : OnRecord c cap e log)
    (hadvances : e.Advances s) :
    OnRecord c cap (e.step s) (log ++ (e.stands s).map (e.setting.block.number, ·)) := by
  cases hmade : e.made? s with
  | some d =>
    rw [Engine.stands, hmade]
    exact h.call hcap hmade
  | none =>
    rw [Engine.stands, hmade]
    simp only [List.map_nil, List.append_nil]
    cases s with
    | call | transact => cases hmade
    | enterBlock block => exact h.enterBlock hadvances
    | enterContext context => exact ⟨h.hosted, h.total, h.stamp, h.capped, h.past⟩

theorem run (hcap : c.perBlockCap = some cap) (steps : List Engine.Step)
    (hascends : e.Ascends steps) (h : OnRecord c cap e log) :
    OnRecord c cap (e.run steps) (log ++ e.standing steps) :=
  Engine.run_invariant (I := OnRecord c cap) (fun _ _ _ hadvances h => h.step hcap hadvances)
    steps e log hascends h

end OnRecord

/-- What the transfers of a block that stand have moved is within the cap, after any calls of any
kind and at each moment of a further one. A call that is abandoned leaves a state in which all that
had succeeded inside of it stands; that state counts too, and so do those that follow. -/
theorem block_cap_safe (c : Config) (cap : Word) (hcap : c.perBlockCap = some cap) (e : Engine)
    (hhosted : Hosted c e.setting.active)
    (hfresh : ∀ key, e.world.state.accounts.storage address key = 0) (steps : List Engine.Step)
    (hascends : e.Ascends steps) :
    movedByAll (Engine.inBlock (e.run steps).setting.block.number (e.standing steps)) ≤
        cap.toNat ∧
      ∀ s d, (e.run steps).made? s = some d → ∀ calls ∈ d.moments,
        movedByAll (Engine.inBlock (e.run steps).setting.block.number (e.standing steps) ++
          calls) ≤ cap.toNat := by
  have hrecord : OnRecord c cap (e.run steps) (e.standing steps) :=
    (OnRecord.fresh hhosted hfresh).run hcap steps hascends
  refine ⟨?_, fun s d hmade calls hcalls => ?_⟩
  · rw [← hrecord.total]
    exact BitVec.le_def.mp hrecord.capped
  · obtain ⟨as, has⟩ := (hrecord.told hcap hmade).moments calls hcalls
    rw [movedByAll_append, ← hrecord.total, ← has.total]
    exact BitVec.le_def.mp (has.capped hrecord.capped)

namespace Courier

def config : Config :=
  { admin := 0xa0, perBlockCap := some 100 }

def errand (call : TokenDualityCall) : NestedCall :=
  { target := address
    input := call.encode
    gas := 100000
    value := 0
    options := [.callerProxying] }

/-- Makes two transfers, of which one is too much for a block, and lists an address in between,
all in the name of its caller. -/
def courier (_ : Bytes) : Program Bytes := do
  discard <| Program.callOut (errand (.transfer 0xa1 0xb1 60))
  discard <| Program.callOut (errand (.addToAllowList 0xb0))
  discard <| Program.callOut (errand (.transfer 0xa1 0xb1 60))
  pure []

def engine : Engine :=
  Engine.create { accounts := (∅ : Accounts).setBalance 0xa1 1000 }
    (WordMap.ofList [(address, precompile config), (0xb0, .stateful courier)])

def request : Request :=
  { callType := .callCode, caller := .account 0xa0, target := 0xb0, input := [], gas := 1000000,
    value := 0 }

/-- The courier is sent in one block, and twice in the next. -/
def steps : List Engine.Step :=
  [.call request, .enterBlock { number := 1 }, .transact 0xa0 0xb0 [] 1000000 0, .call request]

theorem hosted_engine : Hosted config engine.setting.active := by
  have hactive : engine.setting.active =
      ((∅ : Registry).insert address (precompile config)).insert 0xb0 (.stateful courier) := rfl
  rw [hactive]
  exact (hosted_alone config).insert (by decide) fun _ _ _ _ => trivial

/-- The block keeps the first transfer that was made in it, and no other call can add to it. -/
theorem engine_block_cap_safe :
    movedByAll (Engine.inBlock 1 (engine.standing steps)) = 60 ∧
      movedByAll (Engine.inBlock 1 (engine.standing steps)) ≤ (100 : Word).toNat ∧
      ∀ calls ∈ ((engine.run steps).dispatch request).moments,
        movedByAll (Engine.inBlock 1 (engine.standing steps) ++ calls) ≤ (100 : Word).toNat := by
  have hblock : (engine.run steps).setting.block.number = 1 := by decide +kernel
  obtain ⟨hafter, hduring⟩ := block_cap_safe config 100 rfl engine hosted_engine (fun _ => rfl)
    steps (by decide +kernel)
  rw [hblock] at hafter hduring
  exact ⟨by decide +kernel, hafter, hduring (.call request) _ rfl⟩

end Courier

end PrecompileHost.Native.TokenDuality
