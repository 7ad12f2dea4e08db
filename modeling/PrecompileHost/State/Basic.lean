import PrecompileHost.WordMap.Basic
import PrecompileHost.Word

/-!
Accounts, and a state that can go back: the accounts together with the copies of them that
snapshots have put aside. Snapshots are numbered from 0, oldest first.
-/

namespace PrecompileHost

/-- One account. A storage slot that is not bound holds zero. -/
structure Account where
  balance : Word := 0
  nonce : UInt64 := 0
  storage : WordMap 256 Word := ∅
  deriving DecidableEq, Inhabited

abbrev Accounts := WordMap 160 Account

namespace Accounts

/-- The account at `a`, empty if there is none. -/
def account (as : Accounts) (a : Address) : Account :=
  (as.get? a).getD {}

def balance (as : Accounts) (a : Address) : Word :=
  (as.account a).balance

def nonce (as : Accounts) (a : Address) : UInt64 :=
  (as.account a).nonce

def storage (as : Accounts) (a : Address) (key : Word) : Word :=
  ((as.account a).storage.get? key).getD 0

/-- Changes the account at `a`, starting from the empty one if there is none. -/
def update (as : Accounts) (a : Address) (f : Account → Account) : Accounts :=
  as.insert a (f (as.account a))

def create (as : Accounts) (a : Address) : Accounts :=
  as.update a id

def setBalance (as : Accounts) (a : Address) (balance : Word) : Accounts :=
  as.update a fun account => { account with balance := balance }

def setNonce (as : Accounts) (a : Address) (nonce : UInt64) : Accounts :=
  as.update a fun account => { account with nonce := nonce }

/-- Zero is written by unbinding the slot. -/
def setStorage (as : Accounts) (a : Address) (key value : Word) : Accounts :=
  as.update a fun account =>
    { account with
      storage :=
        if value = 0 then account.storage.erase key else account.storage.insert key value }

/-- Adds to a balance, unless the sum does not fit a word. -/
def credit? (as : Accounts) (a : Address) (amount : Word) : Option Accounts :=
  ((as.balance a).add? amount).map (as.setBalance a)

/-- Takes from a balance, unless it is too small. -/
def debit? (as : Accounts) (a : Address) (amount : Word) : Option Accounts :=
  ((as.balance a).sub? amount).map (as.setBalance a)

/-- Moves `value` between accounts, unless a balance does not allow it. Moving nothing touches
no account. -/
def transfer? (as : Accounts) (source target : Address) (value : Word) :
    Option Accounts :=
  if value = 0 then some as
  else (as.debit? source value).bind (·.credit? target value)

end Accounts

structure State where
  accounts : Accounts := ∅
  snapshots : List Accounts := []
  deriving DecidableEq, Inhabited

namespace State

/-- Binds `a` to `account`, slot by slot as given. -/
def insertAccount (s : State) (a : Address) (account : Account) : State :=
  { s with accounts := s.accounts.insert a account }

/-- Puts the accounts aside under the next free number. -/
def snapshot (s : State) : Nat × State :=
  (s.snapshots.length, { s with snapshots := s.snapshots ++ [s.accounts] })

/-- Goes back to snapshot `id`, which is released along with all later ones. A number that is
not live changes nothing. -/
def revertTo (s : State) (id : Nat) : State :=
  match s.snapshots[id]? with
  | some accounts => { accounts, snapshots := s.snapshots.take id }
  | none => s

/-- Releases snapshot `id` and all later ones, keeping the accounts. -/
def commit (s : State) (id : Nat) : State :=
  { s with snapshots := s.snapshots.take id }

end State

end PrecompileHost
