import Mathlib.Data.Finset.Insert
import Mathlib.Data.Finset.Erase
import PrecompileHost.Proofs.Authority
import PrecompileHost.Proofs.Hindsight
import PrecompileHost.Proofs.Leaves
import PrecompileHost.Proofs.TokenDuality.Refusals

/-!
The allowlist as a set of addresses. What is stored stands for the set that the updates have made
which stand, in the order in which they were made, and whatever has come between them. The entries
share their account with the total of the transfers; neither of the two is seen to change with the
other.
-/

namespace PrecompileHost.Native.TokenDuality

/-! ### The set -/

/-- What becomes of a set of addresses by the entry that a method sets. -/
def amend (S : Finset Address) : Option (Address × Bool) → Finset Address
  | some (a, true) => insert a S
  | some (a, false) => S.erase a
  | none => S

/-- The entry of the allowlist that a recorded call has set, if it stands. -/
def edit? (r : CallRecord) : Option (Address × Bool) :=
  (asked? r).bind update?

/-- What the calls that stand have made of a set of addresses. -/
def allowed (S : Finset Address) (calls : List CallRecord) : Finset Address :=
  calls.foldl (fun S r => amend S (edit? r)) S

/-- The allowlist that is stored is the set. -/
def Lists (S : Finset Address) (as : Accounts) : Prop :=
  ∀ a, a ∈ S ↔ Listed as a

/-- The call is one of a transfer. -/
def Transfers (r : CallRecord) : Prop :=
  ∃ source target amount, asked? r = some (.transfer source target amount)

theorem mem_amend {S : Finset Address} {a x : Address} {listed : Bool} :
    x ∈ amend S (some (a, listed)) ↔ if x = a then listed = true else x ∈ S := by
  cases listed with
  | true =>
    rw [amend, Finset.mem_insert]
    split <;> simp [*]
  | false =>
    rw [amend, Finset.mem_erase]
    split <;> simp [*]

theorem allowed_append (S : Finset Address) (calls later : List CallRecord) :
    allowed S (calls ++ later) = allowed (allowed S calls) later :=
  List.foldl_append

/-- Calls that set no entry leave the set as it is. -/
theorem allowed_of_no_edit {S : Finset Address} {calls : List CallRecord}
    (h : ∀ r ∈ calls, edit? r = none) : allowed S calls = S := by
  induction calls with
  | nil => rfl
  | cons r calls ih =>
    rw [List.forall_mem_cons] at h
    have hhead : amend S (edit? r) = S := by rw [h.1, amend]
    change allowed (amend S (edit? r)) calls = S
    rw [hhead]
    exact ih h.2

/-! ### The entries -/

theorem listed_congr {as bs : Accounts} {a : Address}
    (h : bs.storage address a.toWord = as.storage address a.toWord) :
    Listed bs a ↔ Listed as a := by
  rw [Listed, Listed, h]

theorem listed_enlist {as : Accounts} {a x : Address} {listed : Bool} :
    Listed (enlist as a listed) x ↔ if x = a then listed = true else Listed as x := by
  rw [Listed, enlist, Accounts.storage_setStorage, Accounts.storage_create]
  by_cases hx : x = a
  · rw [if_pos ⟨rfl, Address.toWord_inj.mpr hx⟩, if_pos hx]
    cases listed <;> decide
  · rw [if_neg fun h => hx (Address.toWord_inj.mp h.2), if_neg hx]
    rfl

theorem Lists.congr {S : Finset Address} {as bs : Accounts} (hlists : Lists S as)
    (h : ∀ a : Address, bs.storage address a.toWord = as.storage address a.toWord) :
    Lists S bs :=
  fun a => (hlists a).trans (listed_congr (h a)).symm

theorem Lists.enlist {S : Finset Address} {as : Accounts} (hlists : Lists S as) (a : Address)
    (listed : Bool) : Lists (amend S (some (a, listed))) (enlist as a listed) := by
  intro x
  rw [mem_amend, listed_enlist]
  split
  · rfl
  · exact hlists x

/-! ### The set and the calls that stand -/

/-- What calls make of the allowlist is what they make of the set, and only a transfer makes
something of the total. -/
structure Amended (as : Accounts) (calls : List CallRecord) (bs : Accounts) : Prop where
  lists : ∀ S, Lists S as → Lists (allowed S calls) bs
  total : (∀ r ∈ calls, ¬ Transfers r) → ∀ block, recorded bs block = recorded as block

namespace Amended

variable {as bs cs : Accounts} {calls calls' : List CallRecord} {r : CallRecord}

theorem same (h : ∀ key, bs.storage address key = as.storage address key) :
    Amended as [] bs where
  lists _ hlists := hlists.congr fun a => h a.toWord
  total _ block := recorded_congr h block

theorem trans (h : Amended as calls bs) (h' : Amended bs calls' cs) :
    Amended as (calls ++ calls') cs where
  lists S hlists := by
    rw [allowed_append]
    exact h'.lists _ (h.lists S hlists)
  total hcalls block := by
    rw [List.forall_mem_append] at hcalls
    rw [h'.total hcalls.2, h.total hcalls.1]

theorem of_no_edit (hedit : edit? r = none)
    (hlists : ∀ a : Address, bs.storage address a.toWord = as.storage address a.toWord)
    (htotal : ¬ Transfers r → ∀ block, recorded bs block = recorded as block) :
    Amended as [r] bs where
  lists S h := by
    rw [allowed_of_no_edit (List.forall_mem_singleton.mpr hedit)]
    exact h.congr hlists
  total hcalls := htotal (hcalls r (List.mem_singleton_self r))

theorem elsewhere (hasked : asked? r = none) : Amended as [r] as :=
  of_no_edit (by rw [edit?, hasked]; rfl) (fun _ => rfl) fun _ _ => rfl

theorem updated {a : Address} {listed : Bool} (hedit : edit? r = some (a, listed)) :
    Amended as [r] (enlist as a listed) where
  lists S hlists := by
    change Lists (amend S (edit? r)) _
    rw [hedit]
    exact hlists.enlist a listed
  total _ := recorded_enlist as a listed

theorem effected {c : Config} {caller : Address} {block : Word} {readOnly : Bool}
    {call : TokenDualityCall} {output : Bytes} (hasked : asked? r = some call)
    (h : Effected c caller block readOnly as call output bs) : Amended as [r] bs := by
  have hedit : edit? r = update? call := by rw [edit?, hasked, Option.bind_some]
  cases h with
  | transferred _ _ htransferred =>
    -- the total is in slots that are no one's entry
    refine of_no_edit hedit (fun a => entry_of_transferred htransferred) fun hnot => ?_
    exact absurd ⟨_, _, _, hasked⟩ hnot
  | updated hupdate => exact updated (hedit.trans hupdate)
  | viewed hview =>
    -- a method with an answer is none of those that set an entry
    refine of_no_edit ?_ (fun _ => rfl) fun _ _ => rfl
    rw [hedit]
    cases call with
    | addToAllowList | removeFromAllowList => cases hview
    | transfer | allowlist | transferredThisBlock | perCallCap | perBlockCap => rfl

end Amended

variable {c : Config}

theorem chronicle_amended {s : Setting} (hs : Hosted c s.active) : s.Chronicle Amended :=
  hs.chronicle Amended.same Amended.trans (fun _ _ => Amended.elsewhere)
    (fun _ => Amended.effected)

/-! ### What callers are told -/

/-- How a method that only looks ends. -/
def answered (gas : Gas) (output : Bytes) : Ending Outcome :=
  if viewGas ≤ gas then .returned ⟨.ok output, gas - viewGas⟩ else .returned ⟨.error .outOfGas, 0⟩

/-- How a call is turned away. -/
def turnedAway : Ending Outcome :=
  .returned ⟨.error Refusal.unauthorized.error, 0⟩

section

variable {h : Host} {f : Frame} {gas : Gas} {w : World} {input output : Bytes}
  {call : TokenDualityCall}

theorem settled_of_view (hdecode : TokenDualityCall.decode input = .ok call)
    (hlooks : looks call = true)
    (hview : view? c h.setting.block.number w.state.accounts call = some output) :
    ((routine c input).run h f gas w).settled = answered gas output := by
  by_cases hgas : viewGas ≤ gas
  · rw [answered, if_pos hgas]
    have hleft : Gas.sub? gas (price call) = some (gas - viewGas) := by
      rw [price_of_looks hlooks]
      exact Gas.sub?_of_le hgas
    exact (yields_routine.mpr ⟨call, hdecode, _, .viewed hview, hleft, rfl⟩).settled
  · rw [answered, if_neg hgas]
    have hrejected : Gas.sub? gas viewGas = none :=
      Gas.sub?_eq_none_iff.mpr (UInt64.not_le.mp hgas)
    exact (fails_routine.mpr
      (.inr ⟨call, hdecode, (rejected_iff_of_looks hlooks).mpr ⟨hrejected, rfl⟩⟩)).settled rfl

/-- A call is turned away exactly if it has paid and its caller is not one whom it is for. -/
theorem settled_eq_turnedAway_iff (hdecode : TokenDualityCall.decode input = .ok call) :
    ((routine c input).run h f gas w).settled = turnedAway ↔
      price call ≤ gas ∧ ¬ Permitted c w.state.accounts f.contract.caller call := by
  have hiff : Rejected c f.contract.caller h.setting.block.number h.context.readOnly gas
      w.state.accounts call Refusal.unauthorized.error ↔
        price call ≤ gas ∧ ¬ Permitted c w.state.accounts f.contract.caller call :=
    rejected_unauthorized_iff
  rw [← hiff]
  constructor
  · intro hsettled
    have hfails : (routine c input).Fails h f gas w Refusal.unauthorized.error :=
      Run.ending_of_settled hsettled
    rcases fails_routine.mp hfails with ⟨fault, hfault, -⟩ | ⟨call', hdecode', hrejected⟩
    · rw [hdecode] at hfault
      cases hfault
    · obtain rfl : call = call' := Except.ok.inj (hdecode.symm.trans hdecode')
      exact hrejected
  · intro hrejected
    exact (fails_routine.mpr (.inr ⟨call, hdecode, hrejected⟩)).settled rfl

end

/-- A call that the precompile was asked for has run its routine. -/
theorem Hosted.ran_of_asked? {s : Setting} (hs : Hosted c s.active) {r : CallRecord} {body : Trace}
    (hstaged : r.Staged s body) {call : TokenDualityCall} (hasked : asked? r = some call) :
    ∃ f levels w, r.handling = .entered f ∧ TokenDualityCall.decode r.request.input = .ok call ∧
      r.Ran s body f (routine c) levels w := by
  obtain ⟨f, hentered, htarget, hdecode⟩ := CallRecord.entered_of_asked? hasked
  obtain ⟨text, levels, w, hran⟩ := hstaged.ran f hentered
  have hown := hs.own (.stateful text) (by rw [← htarget]; exact hran.active)
  cases hown
  exact ⟨f, levels, w, hentered, hdecode, hran⟩

/-- A method that only looks answers what there is to see in the accounts that it has found. -/
theorem Hosted.answered_of_asked? {s : Setting} (hs : Hosted c s.active) {r : CallRecord}
    {body : Trace} (hstaged : r.Staged s body) {call : TokenDualityCall}
    (hasked : asked? r = some call) (hlooks : looks call = true) {output : Bytes}
    (hview : view? c s.block.number r.found.accounts call = some output) :
    r.ending = answered r.request.gas output := by
  obtain ⟨f, levels, w, -, hdecode, hran⟩ := hs.ran_of_asked? hstaged hasked
  rw [hran.found] at hview
  rw [hran.ending]
  exact settled_of_view hdecode hlooks hview

/-- A call that succeeds leaves what its method makes of the accounts that it has found. -/
theorem Hosted.effected_of_asked? {s : Setting} (hs : Hosted c s.active) {r : CallRecord}
    {body : Trace} (hstaged : r.Staged s body) {call : TokenDualityCall}
    (hasked : asked? r = some call) {output : Bytes} {left : Gas}
    (hok : r.ending = .returned ⟨.ok output, left⟩) :
    ∃ caller readOnly, Effected c caller s.block.number readOnly r.found.accounts call output
      r.left.accounts := by
  obtain ⟨f, levels, w, -, hdecode, hran⟩ := hs.ran_of_asked? hstaged hasked
  rw [hran.ending] at hok
  have hyields := Program.yields_of_ending (Run.ending_of_settled hok)
  obtain ⟨call', hdecode', as, heffected, -, hafter⟩ := yields_routine.mp hyields
  obtain rfl : call = call' := Except.ok.inj (hdecode.symm.trans hdecode')
  rw [hran.found, hran.left, hafter]
  exact ⟨_, _, heffected⟩

/-- How a call goes that is made while `calls` stand, if the allowlist was `S` and the accounts were
`start` before those calls. -/
structure Obeys (c : Config) (block : Word) (start : Accounts) (S : Finset Address)
    (calls : List CallRecord) (r : CallRecord) : Prop where
  /-- Whether an address is listed is whether it is in the set. -/
  reported : ∀ a, asked? r = some (.allowlist a) →
    r.ending = answered r.request.gas (Word.ofBool (decide (a ∈ allowed S calls))).toBytes
  /-- A transfer that is paid for is turned away unless its caller is the admin or in the set. -/
  authorized : ∀ f source target amount, r.handling = .entered f →
    asked? r = some (.transfer source target amount) →
      (r.ending = turnedAway ↔ transferGas ≤ r.request.gas ∧
        ¬ (f.contract.caller = c.admin ∨ f.contract.caller ∈ allowed S calls))
  /-- What was transferred in the block is what is on record. -/
  totalled : asked? r = some .transferredThisBlock →
    r.ending = answered r.request.gas (recorded r.found.accounts block).toBytes
  /-- The call finds the same totals, unless one of the calls before it is a transfer. -/
  total : (∀ call ∈ calls, ¬ Transfers call) →
    ∀ number, recorded r.found.accounts number = recorded start number
  /-- A call that sets no entry leaves the same addresses listed. -/
  kept : ∀ call output left, asked? r = some call → r.ending = .returned ⟨.ok output, left⟩ →
    update? call = none → ∀ a, Listed r.left.accounts a ↔ Listed r.found.accounts a
  /-- A call that is no transfer leaves the same totals. -/
  totalKept : ∀ call output left, asked? r = some call →
    r.ending = .returned ⟨.ok output, left⟩ → ¬ Transfers r →
      ∀ number, recorded r.left.accounts number = recorded r.found.accounts number

theorem obeys_of_staged {s : Setting} (hs : Hosted c s.active) {start : Accounts}
    {S : Finset Address} (hlists : Lists S start) {calls : List CallRecord} {r : CallRecord}
    {body : Trace} (hstaged : r.Staged s body) (hfinds : CallRecord.Finds Amended start calls r) :
    Obeys c s.block.number start S calls r := by
  have hfound : Lists (allowed S calls) r.found.accounts := hfinds.lists S hlists
  have hamended : ∀ call output left, asked? r = some call →
      r.ending = .returned ⟨.ok output, left⟩ →
        Amended r.found.accounts [r] r.left.accounts := by
    intro call output left hasked hok
    obtain ⟨caller, readOnly, heffected⟩ := hs.effected_of_asked? hstaged hasked hok
    exact Amended.effected hasked heffected
  refine ⟨fun a hasked => ?_, fun f source target amount hentered hasked => ?_, fun hasked => ?_,
    hfinds.total, fun call output left hasked hok hupdate a => ?_,
    fun call output left hasked hok hnot => ?_⟩
  · rw [hs.answered_of_asked? hstaged hasked rfl rfl, decide_eq_decide.mpr (hfound a)]
  · obtain ⟨f', levels, w, hentered', hdecode, hran⟩ := hs.ran_of_asked? hstaged hasked
    obtain rfl : f = f' := Handling.entered.inj (hentered.symm.trans hentered')
    have hmem : f.contract.caller ∈ allowed S calls ↔
        Listed w.state.accounts f.contract.caller := by
      rw [← hran.found]
      exact hfound _
    rw [hran.ending, settled_eq_turnedAway_iff hdecode, hmem]
    rfl
  · exact hs.answered_of_asked? hstaged hasked rfl rfl
  · have hedit : edit? r = none := by rw [edit?, hasked, Option.bind_some, hupdate]
    have hleft := (hamended call output left hasked hok).lists _ hfound
    rw [allowed_of_no_edit (List.forall_mem_singleton.mpr hedit)] at hleft
    exact (hleft a).symm.trans (hfound a)
  · exact (hamended call output left hasked hok).total (List.forall_mem_singleton.mpr hnot)

/-! ### Sequences of steps -/

/-- A request that moves nothing asks the precompile for `call`, where calls may be made. -/
structure Consults (e : Engine) (r : Request) (call : TokenDualityCall) : Prop where
  target : r.target = address
  decoded : TokenDualityCall.decode r.input = .ok call
  framed : ∃ f, r.frame? = some f
  unmoved : r.Unmoved e.world.state.accounts
  shallow : e.context.depth ≤ e.setting.maxDepth
  countable : e.context.depth + 1 < CallContext.depthLimit

theorem asked?_of_consults {e : Engine} {r : Request} {call : TokenDualityCall}
    (h : Consults e r call) (hactive : e.setting.active.get? address = some (precompile c)) :
    asked? (e.dispatch r).record = some call := by
  obtain ⟨f, hframe⟩ := h.framed
  have hrequest : (e.dispatch r).record.request = r.made :=
    Engine.request_dispatch h.shallow h.unmoved
  have hentered : (e.dispatch r).record.handling = .entered f := by
    rw [Engine.handling_dispatch h.shallow h.unmoved]
    rw [← h.target] at hactive
    exact Engine.handling_reached hactive hframe h.countable
  refine CallRecord.asked?_of_entered ?_ hentered ?_
  · rw [hrequest, Request.target_made, h.target]
  · rw [hrequest, Request.input_made, h.decoded]

/-- The allowlist that the engine's state stores is `S`, for all that can be seen of it. -/
structure Refines (c : Config) (e : Engine) (S : Finset Address) : Prop where
  lists : Lists S e.world.state.accounts
  /-- A request to the precompile comes to a call of it, as `obeyed` is about. -/
  consulted : ∀ r call, Consults e r call → asked? (e.dispatch r).record = some call
  /-- Each call of a further step, however nested, goes as the set says by then. -/
  obeyed : ∀ s d, e.made? s = some d →
    d.EachCallAfter (Obeys c e.setting.block.number e.world.state.accounts S) []
  /-- After further steps of which no update stands, the same addresses are listed. -/
  kept : ∀ later, (∀ r ∈ (e.standing later).map (·.2), edit? r = none) →
    ∀ a, Listed (e.run later).world.state.accounts a ↔ Listed e.world.state.accounts a
  /-- After further steps of which no transfer stands, the totals are the same. -/
  total : ∀ later, (∀ r ∈ (e.standing later).map (·.2), ¬ Transfers r) →
    ∀ block, recorded (e.run later).world.state.accounts block =
      recorded e.world.state.accounts block

theorem obeys_of_made? {e : Engine} (hhosted : Hosted c e.setting.active) {S : Finset Address}
    (hlists : Lists S e.world.state.accounts) {s : Engine.Step} {d : Dispatched}
    (hmade : e.made? s = some d) :
    d.EachCallAfter (Obeys c e.setting.block.number e.world.state.accounts S) [] := by
  have hfinds : d.EachCallAfter (CallRecord.Finds Amended e.world.state.accounts) [] :=
    Engine.finds_of_made? (fun setting hactive _ => chronicle_amended (hactive ▸ hhosted))
      (Amended.same fun _ => rfl) hmade
  obtain ⟨-, -, setting, levels, context, r, w, hactive, hblock, -, rfl⟩ :=
    Engine.dispatch_of_made? hmade
  have hstaged := dispatch_eachCall (staged_dispatch setting) levels context r w
  rw [← hactive] at hhosted
  rw [← hblock]
  refine hfinds.combine (R := fun call body => call.Staged setting body) ?_ hstaged
  intro calls call body hstaged hfound
  exact obeys_of_staged hhosted hlists hstaged hfound

theorem refines_of_lists {e : Engine} (hhosted : Hosted c e.setting.active)
    (hactive : e.setting.active.get? address = some (precompile c)) {S : Finset Address}
    (hlists : Lists S e.world.state.accounts) : Refines c e S := by
  have htold : ∀ later, Amended e.world.state.accounts ((e.standing later).map (·.2))
      (e.run later).world.state.accounts :=
    Engine.told_run fun setting hactive => chronicle_amended (hactive ▸ hhosted)
  refine ⟨hlists, fun r call hconsults => asked?_of_consults hconsults hactive,
    fun s d => obeys_of_made? hhosted hlists, fun later hnone a => ?_,
    fun later => (htold later).total⟩
  have hlater := (htold later).lists S hlists
  rw [allowed_of_no_edit hnone] at hlater
  exact (hlater a).symm.trans (hlists a)

/-- The stored allowlist is a set of addresses: after any steps it is the set that the updates have
made, from the empty one, which stand, in the order in which they were made. An update that has
failed, or that was undone by the failure of a frame around it, has not made anything of it. -/
theorem allowlist_refines (c : Config) (e : Engine)
    (hactive : e.setting.active.get? address = some (precompile c))
    (hhosted : Hosted c e.setting.active)
    (hfresh : ∀ key, e.world.state.accounts.storage address key = 0) (steps : List Engine.Step) :
    Refines c (e.run steps) (allowed ∅ ((e.standing steps).map (·.2))) := by
  have hempty : Lists ∅ e.world.state.accounts := fun a => by
    rw [Listed, hfresh]
    simp
  have htold : Amended e.world.state.accounts ((e.standing steps).map (·.2))
      (e.run steps).world.state.accounts :=
    Engine.told_run (fun setting hactive => chronicle_amended (hactive ▸ hhosted)) steps
  rw [← Engine.active_run e steps] at hactive hhosted
  exact refines_of_lists hhosted hactive (htold.lists ∅ hempty)

namespace Registrar

def config : Config :=
  { admin := 0xa0 }

/-- A call that is made for the caller. -/
def errand (target : Address) (input : Bytes) (gas : Gas) : NestedCall :=
  { target, input, gas, value := 0, options := [.callerProxying] }

def update (call : TokenDualityCall) : NestedCall :=
  errand address call.encode 100000

/-- Changes its mind about all that it has done. -/
def clerk (_ : Bytes) : Program Bytes := do
  discard <| Program.callOut (update (.removeFromAllowList 0xc1))
  discard <| Program.callOut (update (.addToAllowList 0xc2))
  .fail (.reverted [])

/-- Lists two addresses and strikes one of them off, with a clerk in between. -/
def registrar (_ : Bytes) : Program Bytes := do
  discard <| Program.callOut (update (.addToAllowList 0xc1))
  discard <| Program.callOut (errand 0xb1 [] 500000)
  discard <| Program.callOut (update (.addToAllowList 0xc3))
  discard <| Program.callOut (update (.removeFromAllowList 0xc3))
  pure []

def engine : Engine :=
  Engine.create {}
    (WordMap.ofList
      [(address, precompile config), (0xb0, .stateful registrar), (0xb1, .stateful clerk)])

def ask (caller target : Address) (input : Bytes) : Request :=
  { callType := .call, caller := .account caller, target, input, gas := 2000000, value := 0 }

def consult (caller : Address) (call : TokenDualityCall) : Request :=
  ask caller address call.encode

/-- The registrar is called by a stranger, in whose name nothing can be listed, and by the admin. -/
def steps : List Engine.Step :=
  [.call (ask 0xd0 0xb0 []), .call (ask 0xa0 0xb0 [])]

theorem hosted_engine : Hosted config engine.setting.active := by
  have hactive : engine.setting.active =
      (((∅ : Registry).insert address (precompile config)).insert 0xb0
        (.stateful registrar)).insert 0xb1 (.stateful clerk) := rfl
  rw [hactive]
  refine ((hosted_alone config).insert (by decide) ?_).insert (by decide) ?_
  · exact fun _ _ _ _ _ => trivial
  · exact fun _ _ _ => trivial

/-- Whom the clerk has struck off stays listed, and whom he has listed may not transfer. -/
theorem engine_allowlist_refines :
    Refines config (engine.run steps) {0xc1} ∧
      ((engine.run steps).dispatch (consult 0xd0 (.allowlist 0xc1))).record.ending =
        answered 2000000 (Word.ofBool true).toBytes ∧
      ((engine.run steps).dispatch (consult 0xc2 (.transfer 0xa1 0xa2 1))).record.ending =
        turnedAway := by
  have hset : allowed ∅ ((engine.standing steps).map (·.2)) = {0xc1} := by decide +kernel
  have hrefines := allowlist_refines config engine rfl hosted_engine (fun _ => rfl) steps
  rw [hset] at hrefines
  have hconsults : ∀ caller call, TokenDualityCall.decode call.encode = .ok call →
      Consults (engine.run steps) (consult caller call) call := fun caller call hdecode =>
    ⟨rfl, hdecode, ⟨_, rfl⟩, ⟨BitVec.not_lt_zero, rfl⟩, by decide, by decide⟩
  refine ⟨hrefines, ?_, ?_⟩
  · refine (hrefines.obeyed (.call _) _ rfl).1.reported 0xc1 ?_
    exact hrefines.consulted _ _ (hconsults _ _ rfl)
  · refine ((hrefines.obeyed (.call _) _ rfl).1.authorized _ 0xa1 0xa2 1 rfl ?_).mpr (by decide)
    exact hrefines.consulted _ _ (hconsults _ _ rfl)

end Registrar

end PrecompileHost.Native.TokenDuality
