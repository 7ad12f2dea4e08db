import PrecompileHost.Calldata.TokenDuality
import PrecompileHost.Native.Refusal
import PrecompileHost.Registry

/-!
The token duality precompile: it moves native tokens between accounts for its admin and for the
callers on its allowlist, within a cap on each transfer and a cap on each block's total.

The precompile's own account stores the allowlist, an address being listed if the slot of its
word is not zero, and in the last two slots a total together with the number of the block that
the total belongs to.
-/

namespace PrecompileHost.Native.TokenDuality

def address : Address := 0xfd

def baseGas : Gas := 9000

def slotReadGas : Gas := 2100

def slotWriteGas : Gas := 20000

/-- Two balances are written. -/
def transferGas : Gas := baseGas + 2 * slotWriteGas

def updateGas : Gas := baseGas + slotWriteGas

def viewGas : Gas := baseGas + slotReadGas

/-- The slot of the block number that the total belongs to. -/
def blockSlot : Word := BitVec.allOnes 256

/-- The slot of the total transferred in that block. -/
def totalSlot : Word := BitVec.allOnes 256 - 1

/-- An absent cap does not limit. -/
structure Config where
  admin : Address
  perCallCap : Option Word := none
  perBlockCap : Option Word := none
  deriving DecidableEq

inductive ConfigError
  | zeroAdmin
  | capOrder (perCallCap perBlockCap : Word)
  deriving DecidableEq

def ConfigError.message : ConfigError → String
  | .zeroAdmin => "token duality admin cannot be zero address"
  | .capOrder callCap blockCap =>
    "per_call_cap (" ++ callCap.decimal ++ ") cannot exceed per_block_cap (" ++
      blockCap.decimal ++ ")"

namespace Config

/-- One token in its smallest units. -/
def oneToken : Nat := 1_000_000_000_000_000_000

/-- The configuration without an admin: a million tokens per call and ten million per block. -/
def unowned : Config :=
  { admin := 0
    perCallCap := some (BitVec.ofNat 256 (1000000 * oneToken))
    perBlockCap := some (BitVec.ofNat 256 (10000000 * oneToken)) }

/-- A configuration with an admin, and with a cap per call that is no larger than the one per
block. -/
def checked (admin : Address) (perCallCap perBlockCap : Option Word) :
    Except ConfigError Config :=
  if admin = 0 then .error .zeroAdmin
  else
    match perCallCap, perBlockCap with
    | some callCap, some blockCap =>
      if callCap ≤ blockCap then .ok { admin, perCallCap, perBlockCap }
      else .error (.capOrder callCap blockCap)
    | _, _ => .ok { admin, perCallCap, perBlockCap }

def isProductionReady (c : Config) : Bool :=
  c.admin ≠ 0

end Config

def event (level : Level) (message : String) (fields : List (String × String)) : Event :=
  { level, target := "token_duality", message, fields }

/-! ### Allowlist -/

/-- Whether an address is listed. -/
def isAllowlisted (a : Address) : Program Bool := do
  let slot := a.toWord
  let value ← Program.read (.storage address slot)
  let listed : Bool := value ≠ 0
  Program.log <| event .debug "allowlist lookup"
    [("addr", a.text), ("slot", slot.text), ("value", value.text), ("allowlisted", toString listed)]
  pure listed

def setAllowlisted (a : Address) (listed : Bool) : Program Unit := do
  Program.write (.createAccount address)
  Program.write (.setStorage address a.toWord (Word.ofBool listed))

/-- Only the admin and listed callers may transfer. -/
def authorize (c : Config) (caller : Address) : Program Unit := do
  if caller = c.admin then
    Program.log (event .debug "authorization granted: admin" [("caller", caller.text)])
  else if ← isAllowlisted caller then
    Program.log (event .debug "authorization granted: allowlist" [("caller", caller.text)])
  else do
    Program.log (event .warn "authorization denied" [("caller", caller.text)])
    .fail Refusal.unauthorized.error

/-! ### Caps -/

/-- The total that is on record for a block. -/
def transferredIn (block : Word) : Program Word := do
  if (← Program.read (.storage address blockSlot)) = block then
    Program.read (.storage address totalSlot)
  else pure 0

def checkCallCap (c : Config) (amount : Word) : Program Unit :=
  match c.perCallCap with
  | none => pure ()
  | some cap => Program.require (amount ≤ cap) (Refusal.overPerCallCap amount cap).error

/-- Adds a transfer to the block's total, which is only kept where it is capped. -/
def track (c : Config) (block amount : Word) : Program Unit :=
  match c.perBlockCap with
  | none => pure ()
  | some cap => do
    match (← transferredIn block).add? amount with
    | none => .fail Refusal.untrackable.error
    | some total =>
      Program.require (total ≤ cap) (Refusal.overPerBlockCap total cap).error
      Program.write (.createAccount address)
      Program.write (.setStorage address blockSlot block)
      Program.write (.setStorage address totalSlot total)

/-! ### Methods -/

/-- Moves `amount`. Moving nothing, or moving within one account, does nothing. -/
def transfer (c : Config) (block : Word) (source target : Address) (amount : Word) :
    Program Unit := do
  Program.require (target ≠ 0) Refusal.zeroRecipient.error
  if amount = 0 then pure ()
  else if source = target then
    Program.log (event .debug "skipping self-transfer" [("from", source.text)])
  else do
    checkCallCap c amount
    track c block amount
    Program.log <| event .info "executing transfer"
      [("from", source.text), ("to", target.text), ("amount", amount.decimal),
        ("block_number", block.decimal)]
    Program.write (.createAccount source)
    Program.write (.createAccount target)
    Program.require (← Program.write (.debit source amount)) Refusal.insufficientBalance.error
    Program.require (← Program.write (.credit target amount)) Refusal.balanceOverflow.error
    Program.log (event .info "transfer successful" [])

/-- Lists or unlists an address, for the admin alone. -/
def updateAllowlist (c : Config) (caller a : Address) (listed : Bool) : Program Unit := do
  Program.charge updateGas
  Program.require (caller = c.admin) Refusal.unauthorized.error
  setAllowlisted a listed
  let message := if listed then "added to allowlist" else "removed from allowlist"
  Program.log (event .info message [("account", a.text)])

def execute (c : Config) (caller : Address) (block : Word) : TokenDualityCall → Program Bytes
  | .transfer source target amount => do
    Program.charge transferGas
    authorize c caller
    Program.requireWritable
    transfer c block source target amount
    pure []
  | .addToAllowList a => do
    updateAllowlist c caller a true
    pure []
  | .removeFromAllowList a => do
    updateAllowlist c caller a false
    pure []
  | .allowlist a => do
    Program.charge viewGas
    pure (Word.ofBool (← isAllowlisted a)).toBytes
  | .transferredThisBlock => do
    Program.charge viewGas
    pure (← transferredIn block).toBytes
  | .perCallCap => do
    Program.charge viewGas
    pure (c.perCallCap.getD Word.largest).toBytes
  | .perBlockCap => do
    Program.charge viewGas
    pure (c.perBlockCap.getD Word.largest).toBytes

def routine (c : Config) (input : Bytes) : Program Bytes := do
  let frame ← Program.observe
  let caller := frame.contract.caller
  Program.log <| event .info "precompile call invoked"
    [("caller", caller.text), ("gas", toString frame.contract.gas.toNat),
      ("calldata_len", toString input.length)]
  match TokenDualityCall.decode input with
  | .error e => .fail (.other e.message)
  | .ok call => execute c caller (← Program.chain).blockNumber call

def precompile (c : Config) : Precompile :=
  .stateful (routine c)

end PrecompileHost.Native.TokenDuality
