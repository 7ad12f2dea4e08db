import PrecompileHost.Proofs.Execution

/-!
Statements about whole call trees, read off the transcript: what holds of each operation of a
frame, and what holds of each call of a tree.
-/

namespace PrecompileHost

namespace Trace

/-- Each operation that the frame itself performed is as `P` says. -/
def EachPerformed (P : (o : Operation) → o.Answer → Prop) : Trace → Prop
  | .done => True
  | .performed o answer rest => P o answer ∧ rest.EachPerformed P
  | .declined _ _ rest => rest.EachPerformed P
  | .called _ _ rest => rest.EachPerformed P

/-- Each call made by the frame or inside of its calls is as `P` says, `P` being told the
transcript of the callee. -/
def EachCall (P : CallRecord → Trace → Prop) : Trace → Prop
  | .done => True
  | .performed _ _ rest => rest.EachCall P
  | .declined _ _ rest => rest.EachCall P
  | .called call body rest => (P call body ∧ body.EachCall P) ∧ rest.EachCall P

/-- Both kinds of statement are decided by the recursion that defines them. -/
def decEachPerformed {P : (o : Operation) → o.Answer → Prop}
    [∀ o answer, Decidable (P o answer)] : (t : Trace) → Decidable (t.EachPerformed P)
  | .done => isTrue trivial
  | .performed o answer rest =>
    have := decEachPerformed (P := P) rest
    inferInstanceAs (Decidable (P o answer ∧ rest.EachPerformed P))
  | .declined _ _ rest => decEachPerformed (P := P) rest
  | .called _ _ rest => decEachPerformed (P := P) rest

instance {P : (o : Operation) → o.Answer → Prop} [∀ o answer, Decidable (P o answer)]
    (t : Trace) : Decidable (t.EachPerformed P) :=
  t.decEachPerformed

def decEachCall {R : CallRecord → Trace → Prop} [∀ call body, Decidable (R call body)] :
    (t : Trace) → Decidable (t.EachCall R)
  | .done => isTrue trivial
  | .performed _ _ rest => decEachCall (R := R) rest
  | .declined _ _ rest => decEachCall (R := R) rest
  | .called call body rest =>
    have := decEachCall (R := R) body
    have := decEachCall (R := R) rest
    inferInstanceAs (Decidable ((R call body ∧ body.EachCall R) ∧ rest.EachCall R))

instance {R : CallRecord → Trace → Prop} [∀ call body, Decidable (R call body)] (t : Trace) :
    Decidable (t.EachCall R) :=
  t.decEachCall

end Trace

/-- The call itself and each call inside of it is as `P` says. -/
def Dispatched.EachCall (d : Dispatched) (P : CallRecord → Trace → Prop) : Prop :=
  P d.record d.body ∧ d.body.EachCall P

instance {P : CallRecord → Trace → Prop} [∀ call body, Decidable (P call body)]
    (d : Dispatched) : Decidable (d.EachCall P) :=
  inferInstanceAs (Decidable (P d.record d.body ∧ d.body.EachCall P))

namespace Trace

variable {P Q : (o : Operation) → o.Answer → Prop} {R S : CallRecord → Trace → Prop}

theorem EachPerformed.mono (hPQ : ∀ o answer, P o answer → Q o answer) {t : Trace}
    (h : t.EachPerformed P) : t.EachPerformed Q := by
  induction t with
  | done => trivial
  | performed o answer rest ih => exact ⟨hPQ o answer h.1, ih h.2⟩
  | declined _ _ rest ih => exact ih h
  | called _ _ rest _ ih => exact ih h

theorem EachCall.mono (hRS : ∀ call body, R call body → S call body) {t : Trace}
    (h : t.EachCall R) : t.EachCall S := by
  induction t with
  | done => trivial
  | performed _ _ rest ih => exact ih h
  | declined _ _ rest ih => exact ih h
  | called call body rest ihBody ihRest =>
    exact ⟨⟨hRS call body h.1.1, ihBody h.1.2⟩, ihRest h.2⟩

end Trace

theorem Dispatched.EachCall.mono {R S : CallRecord → Trace → Prop}
    (hRS : ∀ call body, R call body → S call body) {d : Dispatched} (h : d.EachCall R) :
    d.EachCall S :=
  ⟨hRS _ _ h.1, h.2.mono hRS⟩

/-- What holds of each call that a frame may make holds of each call in its transcript. -/
theorem Program.eachCall_run {α : Type} {h : Host} {frame : Frame}
    {R : CallRecord → Trace → Prop} (hdispatch : ∀ r w, (h.dispatch r w).EachCall R)
    (p : Program α) (gas : Gas) (w : World) : (p.run h frame gas w).trace.EachCall R := by
  refine run_induction (P := fun _ _ run => run.trace.EachCall R) ?pure ?fail ?abort ?perform
    ?declined ?aborted ?returned p gas w
  case pure | fail | abort =>
    intros
    trivial
  case perform | declined =>
    intros
    assumption
  case aborted =>
    intro call m reserved gas w d _ hd _
    exact ⟨hd ▸ hdispatch _ _, trivial⟩
  case returned =>
    intro call outcome reserved gas w d rest _ hd _ ih
    exact ⟨hd ▸ hdispatch _ _, ih⟩

end PrecompileHost
