import PrecompileHost.Calldata.NativeToken
import PrecompileHost.Native.Refusal
import PrecompileHost.Registry

/-!
The mint precompile: its admin creates native tokens in an account and destroys them.
-/

namespace PrecompileHost.Native.Mint

def address : Address := 0xf100

/-- Spent by every mint or burn. -/
def gasCost : Gas := 9000

/-- The admin of a precompile that was given none. -/
def defaultAdmin : Address := 0

def event (message field : String) (a : Address) (amount : Word) : Event :=
  { level := .debug
    target := "mint"
    message
    fields := [(field, a.text), ("amount", amount.decimal)] }

/-- Changes the balance as asked. The account is created even if nothing is minted. -/
def execute : NativeTokenCall → Program Unit
  | .mint recipient amount => do
    Program.write (.createAccount recipient)
    Program.require (← Program.write (.credit recipient amount)) Refusal.balanceOverflow.error
    Program.log (event "minted" "to" recipient amount)
  | .burn holder amount => do
    Program.write (.createAccount holder)
    Program.require (← Program.write (.debit holder amount)) Refusal.insufficientBalance.error
    Program.log (event "burned" "from" holder amount)

def routine (admin : Address) (input : Bytes) : Program Bytes := do
  let frame ← Program.observe
  Program.require (frame.contract.caller = admin) Refusal.unauthorized.error
  Program.charge gasCost
  match NativeTokenCall.decode input with
  | .error e => .fail (.other e.message)
  | .ok call =>
    execute call
    pure []

def precompile (admin : Address) : Precompile :=
  .stateful (routine admin)

end PrecompileHost.Native.Mint
