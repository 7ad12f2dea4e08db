import PrecompileHost.CallError
import PrecompileHost.Text.Hex

/-!
The reasons for which the precompiles that move the native token refuse a call.
-/

namespace PrecompileHost.Native

inductive Refusal
  | unauthorized
  | zeroRecipient
  | overPerCallCap (amount cap : Word)
  | overPerBlockCap (total cap : Word)
  | untrackable
  | insufficientBalance
  | balanceOverflow
  deriving DecidableEq

namespace Refusal

def message : Refusal → String
  | .unauthorized => "unauthorized caller"
  | .zeroRecipient => "cannot transfer to zero address"
  | .overPerCallCap amount cap =>
    "transfer exceeds per-call cap: " ++ amount.decimal ++ " > " ++ cap.decimal
  | .overPerBlockCap total cap =>
    "transfer exceeds per-block cap: " ++ total.decimal ++ " > " ++ cap.decimal
  | .untrackable => "transfer tracking overflow"
  | .insufficientBalance => "insufficient balance"
  | .balanceOverflow => "balance overflow"

def error (r : Refusal) : CallError :=
  .other r.message

theorem head?_toList_append {s : String} {c : Char} (h : s.toList.head? = some c) (t : String) :
    (s ++ t).toList.head? = some c := by
  rw [String.toList_append, List.head?_append, h]
  rfl

/-- No other refusal reads as that of a caller without authority. -/
theorem error_eq_unauthorized_iff {r : Refusal} :
    r.error = Refusal.unauthorized.error ↔ r = .unauthorized := by
  constructor
  · intro h
    have hmessage : r.message.toList.head? = some 'u' := by
      rw [CallError.other.inj h]
      decide
    cases r with
    | unauthorized => rfl
    | overPerCallCap amount cap =>
      have hhead : (message (.overPerCallCap amount cap)).toList.head? = some 't' :=
        head?_toList_append (head?_toList_append (head?_toList_append (by decide) _) _) _
      cases hhead.symm.trans hmessage
    | overPerBlockCap total cap =>
      have hhead : (message (.overPerBlockCap total cap)).toList.head? = some 't' :=
        head?_toList_append (head?_toList_append (head?_toList_append (by decide) _) _) _
      cases hhead.symm.trans hmessage
    | zeroRecipient | untrackable | insufficientBalance | balanceOverflow =>
      revert hmessage
      decide
  · rintro rfl
    rfl

end Refusal

end PrecompileHost.Native
