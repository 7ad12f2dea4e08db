import PrecompileHost.Proofs.TokenDuality.Allowlist
import PrecompileHost.Proofs.TokenDuality.BlockCap

/-!
What callers are told of the total that was transferred in a block. Where blocks are capped it is
the sum of what the transfers of the block that stand by then have moved, so that the view can be
relied on in the middle of a call tree too. Where they are not, nothing is ever put on record, and
callers are told that nothing was transferred.
-/

namespace PrecompileHost.Native.TokenDuality

variable {c : Config}

/-! ### Without a cap on blocks -/

/-- The two slots of the record are as they were. -/
def SlotsKept (as : Accounts) (_ : List CallRecord) (bs : Accounts) : Prop :=
  bs.storage address blockSlot = as.storage address blockSlot ∧
    bs.storage address totalSlot = as.storage address totalSlot

namespace SlotsKept

variable {as bs cs : Accounts} {calls calls' : List CallRecord}

theorem same (h : ∀ key, bs.storage address key = as.storage address key) :
    SlotsKept as calls bs :=
  ⟨h blockSlot, h totalSlot⟩

theorem trans (h : SlotsKept as calls bs) (h' : SlotsKept bs calls' cs) :
    SlotsKept as (calls ++ calls') cs :=
  ⟨h'.1.trans h.1, h'.2.trans h.2⟩

theorem recorded (h : SlotsKept as calls bs) (block : Word) :
    recorded bs block = TokenDuality.recorded as block := by
  rw [TokenDuality.recorded, TokenDuality.recorded, h.1, h.2]

theorem effected (hcap : c.perBlockCap = none) {caller : Address} {block : Word}
    {readOnly : Bool} {call : TokenDualityCall} {output : Bytes}
    (h : Effected c caller block readOnly as call output bs) : SlotsKept as calls bs := by
  cases h with
  | transferred _ _ htransferred =>
    cases htransferred with
    | stayed => exact same fun _ => rfl
    | moved _ _ _ _ htracked hdebit hcredit =>
      -- a transfer that is not tracked moves balances alone
      cases htracked with
      | capped hsome => simp [hcap] at hsome
      | uncapped => exact same (storage_of_moved hdebit hcredit address)
  | updated => exact ⟨blockSlot_enlist .., totalSlot_enlist ..⟩
  | viewed => exact same fun _ => rfl

end SlotsKept

theorem chronicle_slotsKept (hcap : c.perBlockCap = none) {s : Setting}
    (hs : Hosted c s.active) : s.Chronicle SlotsKept :=
  hs.chronicle SlotsKept.same SlotsKept.trans (fun _ _ _ => SlotsKept.same fun _ => rfl)
    (fun _ _ => SlotsKept.effected hcap)

/-! ### What callers are told -/

/-- What of the amounts that were moved is reported. -/
def reportedOf (c : Config) (calls : List CallRecord) : Nat :=
  if c.perBlockCap = none then 0 else movedByAll calls

/-- A call that asks for the total, made while `calls` stand of its tree and `earlier` of what was
called before in the block, is told what is reported of them all. -/
def Reports (c : Config) (earlier calls : List CallRecord) (r : CallRecord) : Prop :=
  asked? r = some .transferredThisBlock →
    ∃ total : Word, total.toNat = reportedOf c (earlier ++ calls) ∧
      r.ending = answered r.request.gas total.toBytes

theorem reports_of_finds {e : Engine} (hhosted : Hosted c e.setting.active)
    {T : Accounts → List CallRecord → Accounts → Prop} {start : Accounts}
    {earlier : List CallRecord} {s : Engine.Step} {d : Dispatched} (hmade : e.made? s = some d)
    (hfinds : d.EachCallAfter (CallRecord.Finds T start) [])
    (hrecorded : ∀ calls as, T start calls as →
      (recorded as e.setting.block.number).toNat = reportedOf c (earlier ++ calls)) :
    d.EachCallAfter (Reports c earlier) [] := by
  -- the answer is read off the record of the call, the total off the moment at which it was made
  obtain ⟨-, -, setting, levels, context, r, w, hactive, hblock, -, rfl⟩ :=
    Engine.dispatch_of_made? hmade
  rw [← hactive] at hhosted
  rw [← hblock] at hrecorded
  have hstaged := dispatch_eachCall (staged_dispatch setting) levels context r w
  refine hfinds.combine (R := fun call body => call.Staged setting body) ?_ hstaged
  intro calls call body hstaged hfound hasked
  exact ⟨_, hrecorded calls _ hfound, hhosted.answered_of_asked? hstaged hasked rfl rfl⟩

theorem reports_of_uncapped (hcap : c.perBlockCap = none) {e : Engine}
    (hhosted : Hosted c e.setting.active)
    (hfresh : ∀ key, e.world.state.accounts.storage address key = 0) (steps : List Engine.Step)
    (earlier : List CallRecord) {s : Engine.Step} {d : Dispatched}
    (hmade : (e.run steps).made? s = some d) : d.EachCallAfter (Reports c earlier) [] := by
  have hkept : SlotsKept e.world.state.accounts ((e.standing steps).map (·.2))
      (e.run steps).world.state.accounts :=
    Engine.told_run (fun setting hactive => chronicle_slotsKept hcap (hactive ▸ hhosted)) steps
  rw [← Engine.active_run e steps] at hhosted
  refine reports_of_finds hhosted hmade (Engine.finds_of_made? (fun setting hactive _ =>
    chronicle_slotsKept hcap (hactive ▸ hhosted)) (SlotsKept.same fun _ => rfl) hmade) ?_
  intro calls as hslots
  -- the empty slots read as nothing in every block, also in the one that their zero names
  have hnone : recorded e.world.state.accounts (e.run steps).setting.block.number = 0 := by
    rw [recorded]
    split
    · exact hfresh totalSlot
    · rfl
  rw [hslots.recorded, hkept.recorded, hnone, reportedOf, if_pos hcap]
  rfl

theorem reports_of_capped {cap : Word} (hcap : c.perBlockCap = some cap) {e : Engine}
    {log : List (Word × CallRecord)} (hrecord : OnRecord c cap e log) {s : Engine.Step}
    {d : Dispatched} (hmade : e.made? s = some d) :
    d.EachCallAfter (Reports c (Engine.inBlock e.setting.block.number log)) [] := by
  have hfinds : d.EachCallAfter
      (CallRecord.Finds (Counted e.setting.block.number cap) e.world.state.accounts) [] := by
    refine Engine.finds_of_made? (fun setting hactive hblock => ?_) (Counted.same fun _ => rfl)
      hmade
    rw [← hblock]
    exact chronicle_counted hcap (hactive ▸ hrecord.hosted)
  refine reports_of_finds hrecord.hosted hmade hfinds fun calls as hcounted => ?_
  have hsome : c.perBlockCap ≠ none := by
    rw [hcap]
    exact Option.some_ne_none _
  rw [hcounted.total, hrecord.total, reportedOf, if_neg hsome, movedByAll_append]

/-- Who asks for the total of the block is told the sum of what was moved in it by the transfers
that stand, if blocks are capped, and zero if they are not. That is so after any calls of any kind,
in blocks in their order, and at each moment of a further call. -/
theorem block_total_told (c : Config) (e : Engine)
    (hactive : e.setting.active.get? address = some (precompile c))
    (hhosted : Hosted c e.setting.active)
    (hfresh : ∀ key, e.world.state.accounts.storage address key = 0) (steps : List Engine.Step)
    (hascends : e.Ascends steps) :
    (∀ r, Consults (e.run steps) r .transferredThisBlock →
      ∃ total : Word,
        total.toNat = reportedOf c
          (Engine.inBlock (e.run steps).setting.block.number (e.standing steps)) ∧
        ((e.run steps).dispatch r).record.ending = answered r.gas total.toBytes) ∧
    ∀ s d, (e.run steps).made? s = some d →
      d.EachCallAfter
        (Reports c (Engine.inBlock (e.run steps).setting.block.number (e.standing steps))) [] := by
  have hreports : ∀ s d, (e.run steps).made? s = some d → d.EachCallAfter
      (Reports c (Engine.inBlock (e.run steps).setting.block.number (e.standing steps))) [] := by
    intro s d hmade
    cases hcap : c.perBlockCap with
    | none => exact reports_of_uncapped hcap hhosted hfresh steps _ hmade
    | some cap =>
      exact reports_of_capped hcap ((OnRecord.fresh hhosted hfresh).run hcap steps hascends) hmade
  refine ⟨fun r hconsults => ?_, hreports⟩
  rw [← Engine.active_run e steps] at hactive
  obtain ⟨total, htotal, hending⟩ :=
    (hreports (.call r) _ rfl).1 (asked?_of_consults hconsults hactive)
  rw [List.append_nil] at htotal
  rw [Engine.request_dispatch hconsults.shallow hconsults.unmoved] at hending
  exact ⟨total, htotal, hending⟩

namespace Courier

def query : Request :=
  { callType := .staticCall, caller := .account 0xd0, target := address
    input := TokenDualityCall.transferredThisBlock.encode, gas := 20000, value := 0 }

/-- Of what the courier has carried in two blocks, a stranger is told about the present one. -/
theorem engine_block_total_told :
    ((engine.run steps).dispatch query).record.ending =
        .returned ⟨.ok (60 : Word).toBytes, 8900⟩ ∧
      ((engine.run steps).dispatch request).EachCallAfter
        (Reports config (Engine.inBlock 1 (engine.standing steps))) [] := by
  have hblock : (engine.run steps).setting.block.number = 1 := by decide +kernel
  obtain ⟨hasked, hduring⟩ := block_total_told config engine rfl hosted_engine (fun _ => rfl) steps
    (by decide +kernel)
  rw [hblock] at hasked hduring
  obtain ⟨total, htotal, hending⟩ := hasked query
    ⟨rfl, rfl, ⟨_, rfl⟩, ⟨BitVec.not_lt_zero, rfl⟩, by decide +kernel, by decide +kernel⟩
  obtain rfl : total = 60 := BitVec.eq_of_toNat_eq (htotal.trans (by decide +kernel))
  exact ⟨hending, hduring (.call request) _ rfl⟩

end Courier

namespace Unmetered

def config : Config :=
  { admin := 0xa0, perCallCap := some 100 }

def engine : Engine :=
  Engine.create { accounts := (∅ : Accounts).setBalance 0xa1 100 }
    (WordMap.ofList [(address, precompile config)])

def ask (call : TokenDualityCall) : Request :=
  { callType := .call, caller := .account 0xa0, target := address, input := call.encode
    gas := 100000, value := 0 }

def steps : List Engine.Step :=
  [.call (ask (.transfer 0xa1 0xb1 60))]

set_option maxRecDepth 3000 in
/-- Where blocks are not capped, 60 have been transferred in the block and the view says none. -/
theorem engine_reports_nothing :
    Hosted config engine.setting.active ∧
      movedByAll (Engine.inBlock (engine.run steps).setting.block.number
        (engine.standing steps)) = 60 ∧
      ((engine.run steps).world.state.accounts.balance 0xb1).toNat = 60 ∧
      ((engine.run steps).dispatch (ask .transferredThisBlock)).record.ending =
        .returned ⟨.ok (0 : Word).toBytes, 88900⟩ := by
  refine ⟨hosted_alone config, ?_, ?_, rfl⟩ <;> decide +kernel

end Unmetered

end PrecompileHost.Native.TokenDuality
