import PrecompileHost.Native.Identity
import PrecompileHost.Native.Mint
import PrecompileHost.Native.TokenDuality

/-!
Registration of the shipped precompiles: identity always, the others where they have an admin.
-/

namespace PrecompileHost.Native

structure Config where
  mintAdmin : Option Address := none
  tokenDuality : Option TokenDuality.Config := none
  deriving DecidableEq

namespace Config

def install (c : Config) (r : Registry) : Registry :=
  let r := r.insert Identity.address Identity.precompile
  let r :=
    match c.mintAdmin with
    | none => r
    | some admin => r.insert Mint.address (Mint.precompile admin)
  match c.tokenDuality with
  | none => r
  | some duality => r.insert TokenDuality.address (TokenDuality.precompile duality)

def event (level : Level) (message : String) (fields : List (String × String)) : Event :=
  { level, target := "ev_precompiles", message, fields }

def mintEvents : Option Address → List Event
  | none => []
  | some admin => [event .info "installed native mint precompile" [("admin", admin.text)]]

def tokenDualityEvents : Option TokenDuality.Config → List Event
  | none => []
  | some duality =>
    (if duality.isProductionReady then []
      else [event .warn "token duality admin is the zero address" []]) ++
      [event .info "installed token duality precompile" [("admin", duality.admin.text)]]

/-- What an installation reports. -/
def installEvents (c : Config) : List Event :=
  mintEvents c.mintAdmin ++ tokenDualityEvents c.tokenDuality

end Config

end PrecompileHost.Native
