import PrecompileHost.Native.Install
import PrecompileHost.Text.Address
import PrecompileHost.Text.Amount
import PrecompileHost.Text.Blank

/-!
The configuration of the shipped precompiles from named texts. A blank text counts as absent. The
texts are read in a fixed order and then checked against each other, and the first fault is
reported.
-/

namespace PrecompileHost.Config

def mintAdminVariable : String := "EV_MINT_ADMIN"

def dualityAdminVariable : String := "EV_TOKEN_DUALITY_ADMIN"

def perCallCapVariable : String := "EV_TOKEN_DUALITY_PER_CALL_CAP"

def perBlockCapVariable : String := "EV_TOKEN_DUALITY_PER_BLOCK_CAP"

inductive PrecompilesError
  | address (error : AddressTextError)
  | amount (error : AmountTextError)
  | duality (error : Native.TokenDuality.ConfigError)
  | capsWithoutAdmin
  deriving DecidableEq

def PrecompilesError.message : PrecompilesError → String
  | .address e => e.message
  | .amount e => e.message
  | .duality e => e.message
  | .capsWithoutAdmin =>
    dualityAdminVariable ++ " is required when token duality caps are set"

/-- A text without the blanks around it, unless it is all blank. -/
def present? (text : Option (List Char)) : Option (List Char) :=
  (text.map Text.trim).filter (· ≠ [])

def readAddress? : Option (List Char) → Except PrecompilesError (Option Address)
  | none => .ok none
  | some text => ((Address.ofText text).mapError .address).map some

def readAmount? : Option (List Char) → Except PrecompilesError (Option Word)
  | none => .ok none
  | some text => ((Word.ofText text).mapError .amount).map some

/-- Caps need an admin. -/
def duality? (admin : Option Address) (perCallCap perBlockCap : Option Word) :
    Except PrecompilesError (Option Native.TokenDuality.Config) :=
  match admin with
  | some admin =>
    ((Native.TokenDuality.Config.checked admin perCallCap perBlockCap).mapError .duality).map some
  | none =>
    if perCallCap = none ∧ perBlockCap = none then .ok none else .error .capsWithoutAdmin

def precompilesFrom (lookup : String → Option (List Char)) :
    Except PrecompilesError Native.Config := do
  let mintAdmin ← readAddress? (present? (lookup mintAdminVariable))
  let dualityAdmin ← readAddress? (present? (lookup dualityAdminVariable))
  let perCallCap ← readAmount? (present? (lookup perCallCapVariable))
  let perBlockCap ← readAmount? (present? (lookup perBlockCapVariable))
  let tokenDuality ← duality? dualityAdmin perCallCap perBlockCap
  pure { mintAdmin, tokenDuality }

/-- Reads environment variables, of which one that is no text counts as absent. -/
def precompilesFromEnv (env : String → Option Bytes) : Except PrecompilesError Native.Config :=
  precompilesFrom fun name => (env name).bind Text.ofUTF8?

end PrecompileHost.Config
