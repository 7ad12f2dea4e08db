import PrecompileHost.State.Basic

/-!
Reads and writes of a state as data, each with the type of its answer, so that a program can name
what it wants without holding the state.
-/

namespace PrecompileHost

inductive Query
  | accountExists (a : Address)
  | balance (a : Address)
  | nonce (a : Address)
  | storage (a : Address) (key : Word)
  deriving DecidableEq

namespace Query

abbrev Answer : Query → Type
  | .accountExists _ => Bool
  | .balance _ => Word
  | .nonce _ => UInt64
  | .storage _ _ => Word

def answer (as : Accounts) : (q : Query) → q.Answer
  | .accountExists a => as.contains a
  | .balance a => as.balance a
  | .nonce a => as.nonce a
  | .storage a key => as.storage a key

end Query

inductive Mutation
  | createAccount (a : Address)
  | setBalance (a : Address) (balance : Word)
  | setNonce (a : Address) (nonce : UInt64)
  | setStorage (a : Address) (key value : Word)
  | credit (a : Address) (amount : Word)
  | debit (a : Address) (amount : Word)
  | snapshot
  | revertTo (id : Nat)
  | commit (id : Nat)
  deriving DecidableEq

namespace Mutation

/-- Arithmetic answers whether it was done, a snapshot answers its number. -/
abbrev Answer : Mutation → Type
  | .credit _ _ | .debit _ _ => Bool
  | .snapshot => Nat
  | .createAccount _ | .setBalance _ _ | .setNonce _ _ | .setStorage _ _ _ | .revertTo _
  | .commit _ => Unit

/-- Makes a change of the accounts that may be impossible, and answers whether it was made. -/
def perform? (s : State) : Option Accounts → Bool × State
  | some accounts => (true, { s with accounts })
  | none => (false, s)

def apply (s : State) : (m : Mutation) → m.Answer × State
  | .createAccount a => ((), { s with accounts := s.accounts.create a })
  | .setBalance a balance => ((), { s with accounts := s.accounts.setBalance a balance })
  | .setNonce a nonce => ((), { s with accounts := s.accounts.setNonce a nonce })
  | .setStorage a key value => ((), { s with accounts := s.accounts.setStorage a key value })
  | .credit a amount => perform? s (s.accounts.credit? a amount)
  | .debit a amount => perform? s (s.accounts.debit? a amount)
  | .snapshot => s.snapshot
  | .revertTo id => ((), s.revertTo id)
  | .commit id => ((), s.commit id)

/-- Whether the write handles snapshots rather than accounts. -/
def isSnapshotControl : Mutation → Bool
  | .snapshot | .revertTo _ | .commit _ => true
  | _ => false

end Mutation

end PrecompileHost
