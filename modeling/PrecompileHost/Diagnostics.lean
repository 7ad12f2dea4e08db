import PrecompileHost.Engine
import PrecompileHost.Text.Record

/-!
Engines, calls and frames as diagnostic text.
-/

namespace PrecompileHost

open Text (record partialRecord variant)

def CallType.variantName : CallType → String
  | .call => "Call"
  | .callCode => "CallCode"
  | .delegateCall => "DelegateCall"
  | .staticCall => "StaticCall"

def Contract.diagnostic (c : Contract) : String :=
  record "Contract"
    [("caller", c.caller.text), ("address", c.address.text), ("value", c.value.decimal),
      ("gas", toString c.gas.toNat), ("delegate", toString c.isDelegate)]

def Caller.diagnostic : Caller → String
  | .account a => variant "Account" a.text
  | .frame c => variant "Contract" c.diagnostic

def Observation.diagnostic (o : Observation) : String :=
  partialRecord "PrecompileEnvironment"
    [("contract", o.contract.diagnostic), ("call_type", o.callType.variantName),
      ("raw_caller", o.rawCaller.text), ("raw_self", o.rawSelf.text)]

def Request.diagnostic (r : Request) : String :=
  partialRecord "CallArgs"
    [("call_type", r.callType.variantName), ("caller", r.caller.diagnostic),
      ("address", r.target.text),
      ("input", Text.list (r.input.map fun b => toString b.toNat)),
      ("gas_remaining", toString r.gas.toNat), ("value", r.value.decimal)]

def Account.diagnostic (a : Account) : String :=
  record "MemoryAccount"
    [("balance", a.balance.decimal), ("nonce", toString a.nonce.toNat),
      ("storage", Text.map (a.storage.entries.map fun e => (Word.text e.1, Word.text e.2)))]

def Accounts.diagnostic (as : Accounts) : String :=
  Text.map (as.entries.map fun e => (Address.text e.1, e.2.diagnostic))

def State.diagnostic (s : State) : String :=
  record "MemoryState"
    [("accounts", s.accounts.diagnostic),
      ("snapshots", Text.list (s.snapshots.map Accounts.diagnostic))]

def Rules.diagnostic (r : Rules) : String :=
  record "Rules" [("chain_id", toString r.chainId.toNat), ("spec", r.latest.constantName)]

def CallContext.diagnostic (c : CallContext) : String :=
  record "CallContext" [("depth", toString c.depth), ("read_only", toString c.readOnly)]

def Precompile.diagnostic : Precompile → String
  | .stateless _ _ => "Precompile::Stateless"
  | .stateful _ => "Precompile::Stateful"

def Registry.diagnostic (r : Registry) : String :=
  record "PrecompileSet"
    [("precompiles", Text.map (r.entries.map fun e => (Address.text e.1, e.2.diagnostic)))]

def Engine.diagnostic (e : Engine) : String :=
  partialRecord "Evm"
    [("db", e.world.state.diagnostic),
      ("config", record "EvmConfig" [("max_call_depth", toString e.setting.maxDepth)]),
      ("rules", e.setting.rules.diagnostic),
      ("origin", e.setting.origin.text),
      ("context", e.context.diagnostic),
      ("active", Registry.diagnostic e.setting.active),
      ("invalidated", toString e.world.invalidation.isSome)]

end PrecompileHost
