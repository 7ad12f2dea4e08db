import PrecompileHost.Proofs.Atomicity
import PrecompileHost.Registry.Lemmas

/-!
What routines may do, read off their text. A routine is held to a discipline whatever it is
answered, so the discipline passes to every transcript of it and, if all active routines keep one,
to every frame of every call. A leaf makes no nested calls and never abandons its frame.
-/

namespace PrecompileHost

namespace Program

variable {α β : Type} {P Q : Operation → Prop}

/-- Whatever it is answered, the routine performs no operation but such as `P` allows. -/
def Only (P : Operation → Prop) : Program α → Prop
  | .pure _ | .fail _ | .abort _ => True
  | .perform o next => P o ∧ ∀ answer, (next answer).Only P
  | .call _ next => ∀ result, (next result).Only P

/-- As `Only`, and the routine neither makes a nested call nor abandons its frame. -/
def Leaf (P : Operation → Prop) : Program α → Prop
  | .pure _ | .fail _ => True
  | .abort _ | .call _ _ => False
  | .perform o next => P o ∧ ∀ answer, (next answer).Leaf P

theorem Leaf.only {p : Program α} (h : p.Leaf P) : p.Only P := by
  induction p with
  | pure | fail => trivial
  | abort | call => exact h.elim
  | perform o next ih => exact ⟨h.1, fun answer => ih answer (h.2 answer)⟩

theorem Only.mono (hPQ : ∀ o, P o → Q o) {p : Program α} (h : p.Only P) : p.Only Q := by
  induction p with
  | pure | fail | abort => trivial
  | perform o next ih => exact ⟨hPQ o h.1, fun answer => ih answer (h.2 answer)⟩
  | call call next ih => exact fun result => ih result (h result)

/-! ### Leaves from leaves -/

theorem Leaf.bind {p : Program α} {f : α → Program β} (hp : p.Leaf P)
    (hf : ∀ a, (f a).Leaf P) : (p >>= f).Leaf P := by
  induction p with
  | pure a => exact hf a
  | fail e => trivial
  | abort | call => exact hp.elim
  | perform o next ih => exact ⟨hp.1, fun answer => ih answer (hp.2 answer)⟩

theorem leaf_perform {o : Operation} (ho : P o) : (Program.perform o .pure).Leaf P :=
  ⟨ho, fun _ => trivial⟩

theorem leaf_require (condition : Bool) (e : CallError) : (require condition e).Leaf P := by
  unfold require
  split <;> trivial

theorem leaf_charge {amount : Gas} (ho : P (.useGas amount)) : (charge amount).Leaf P := by
  refine (leaf_perform ho).bind fun enough => ?_
  split <;> trivial

theorem leaf_requireWritable (ho : P .observe) : requireWritable.Leaf P :=
  (leaf_perform ho).bind fun _ => leaf_require _ _

theorem leaf_write {m : Mutation} (ho : P (.write m)) : (write m).Leaf P := by
  refine (leaf_perform ho).bind fun answer => ?_
  cases answer <;> trivial

/-! ### From the text to the transcript -/

variable (h : Host) (frame : Frame) (gas : Gas) (w : World)

theorem Only.eachPerformed_run {p : Program α} (hp : p.Only P) :
    (p.run h frame gas w).trace.EachPerformed fun o _ => P o := by
  induction p generalizing gas w with
  | pure | fail | abort => trivial
  | perform o next ih => exact ⟨hp.1, ih _ _ _ (hp.2 _)⟩
  | call call next ih =>
    rw [run]
    split
    · exact ih _ _ _ (hp _)
    · trivial
    · exact ih _ _ _ (hp _)

/-- A leaf returns, after no calls. -/
theorem Leaf.returns_run {p : Program α} (hp : p.Leaf P) :
    (∃ result, (p.run h frame gas w).ending = .returned result) ∧
      (p.run h frame gas w).trace.EachCall fun _ _ => False := by
  induction p generalizing gas w with
  | pure a => exact ⟨⟨_, rfl⟩, trivial⟩
  | fail e => exact ⟨⟨_, rfl⟩, trivial⟩
  | abort | call => exact hp.elim
  | perform o next ih => exact ih _ _ _ (hp.2 _)

end Program

/-- Every routine of the registry performs only what `P` allows at its address. -/
def Registry.Only (r : Registry) (P : Address → Operation → Prop) : Prop :=
  ∀ a routine, r.get? a = some (.stateful routine) → ∀ input, (routine input).Only (P a)

theorem Registry.only_empty {P : Address → Operation → Prop} : Registry.Only ∅ P := by
  intro a routine hroutine
  cases hroutine

theorem Registry.Only.insert {r : Registry} {P : Address → Operation → Prop} (h : r.Only P)
    {a : Address} {routine : Bytes → Program Bytes}
    (hroutine : ∀ input, (routine input).Only (P a)) :
    Registry.Only (r.insert a (.stateful routine)) P := by
  intro b other hother
  rw [WordMap.get?_insert] at hother
  split at hother
  · rename_i hb
    cases hother
    exact hb ▸ hroutine
  · exact h b other hother

/-- What is activated keeps the discipline of what is registered. -/
theorem Registry.Only.activate {r : Registry} {P : Address → Operation → Prop} (h : r.Only P)
    (rules : Rules) (hooks : Hooks) : Registry.Only (r.activate rules hooks) P :=
  fun a routine hroutine => h a routine (get?_select_eq_some_iff.mp hroutine).1

/-- Where all active routines keep a discipline, so does every frame of a call. -/
theorem dispatch_only {s : Setting} {P : Address → Operation → Prop} (hactive : s.active.Only P)
    (levels : Nat) (c : CallContext) (r : Request) (w : World) :
    (dispatch s levels c r w).EachCall fun call body =>
      body.EachPerformed fun o _ => P call.request.target o := by
  refine dispatch_induction (P := fun _ _ _ d => d.EachCall fun call body =>
    body.EachPerformed fun o _ => P call.request.target o) ?tooDeep ?executed levels c r w
  case tooDeep =>
    intro c r w
    exact ⟨trivial, trivial⟩
  case executed =>
    intro levels ih c r w d hd
    cases hd with
    | unfunded => exact ⟨trivial, trivial⟩
    | overfull =>
      rw [Dispatched.EachCall, Dispatched.body_settle]
      exact ⟨trivial, trivial⟩
    | @handled _ found hfund handling callee hhandled =>
      rw [Dispatched.EachCall, Dispatched.body_settle, Dispatched.request_settle]
      cases hhandled with
      | entered hroutine hframe hdepth =>
        exact ⟨(hactive _ _ hroutine _).eachPerformed_run _ _ _ _,
          Program.eachCall_run (fun r w => ih _ r w) _ _ _⟩
      | _ => exact ⟨trivial, trivial⟩

/-! ### No snapshots by hand -/

/-- The operation takes, releases or goes back to a snapshot. -/
def Operation.handlesSnapshots : Operation → Bool
  | .write m => m.isSnapshotControl
  | _ => false

/-- The account whose storage the operation writes. -/
def Operation.stores? : Operation → Option Address
  | .write (.setStorage a _ _) => some a
  | _ => none

/-- The operation handles no snapshots and does not write the storage of `a`. -/
def Operation.SparesStorage (a : Address) (o : Operation) : Prop :=
  o.handlesSnapshots = false ∧ o.stores? ≠ some a

/-- A write that spares the storage of an account leaves it as it was. -/
theorem Mutation.storage_apply {m : Mutation} {a : Address}
    (h : (Operation.write m).SparesStorage a) (t : State) (key : Word) :
    (m.apply t).2.accounts.storage a key = t.accounts.storage a key := by
  cases m with
  | createAccount b => exact Accounts.storage_create ..
  | setBalance b balance => exact Accounts.storage_setBalance ..
  | setNonce b nonce => exact Accounts.storage_setNonce ..
  | setStorage b slot value =>
    have hne : a ≠ b := fun heq => h.2 (heq ▸ rfl)
    change (t.accounts.setStorage b slot value).storage a key = _
    rw [Accounts.storage_setStorage, if_neg fun heq => hne heq.1]
  | credit b amount =>
    change (perform? t (t.accounts.credit? b amount)).2.accounts.storage a key = _
    cases hcredit : t.accounts.credit? b amount with
    | none => rfl
    | some as => exact Accounts.storage_of_credit? hcredit key
  | debit b amount =>
    change (perform? t (t.accounts.debit? b amount)).2.accounts.storage a key = _
    cases hdebit : t.accounts.debit? b amount with
    | none => rfl
    | some as => exact Accounts.storage_of_debit? hdebit key
  | snapshot => rfl
  | revertTo id => cases h.1
  | commit id => rfl

theorem Operation.settles?_of_spares {o : Operation} (h : o.handlesSnapshots = false)
    (answer : o.Answer) : o.settles? answer = none := by
  cases o with
  | write m =>
    change Option m.Answer at answer
    change m.isSnapshotControl = false at h
    cases answer with
    | none => rfl
    | some a => cases m <;> first | rfl | cases h
  | observe | chain | useGas | read | invalidate | log => rfl

/-- A frame that handles no snapshots settles none that is not its own. -/
theorem CallRecord.settlesOwn_of_spares {r : CallRecord} {body : Trace}
    (h : body.EachPerformed fun o _ => o.handlesSnapshots = false) : r.SettlesOwn body := by
  refine h.mono fun o answer ho id hid => ?_
  rw [Operation.settles?_of_spares ho answer] at hid
  cases hid

/-- Where no active routine handles snapshots, calls are atomic without further ado. -/
theorem dispatch_settlesOwn {s : Setting}
    (hactive : s.active.Only fun _ o => o.handlesSnapshots = false) (levels : Nat)
    (c : CallContext) (r : Request) (w : World) :
    (dispatch s levels c r w).EachCall CallRecord.SettlesOwn :=
  (dispatch_only hactive levels c r w).mono fun _ _ => CallRecord.settlesOwn_of_spares

end PrecompileHost
