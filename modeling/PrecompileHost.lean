import PrecompileHost.Calldata.Lemmas
import PrecompileHost.Config.Depth
import PrecompileHost.Config.Precompiles
import PrecompileHost.Diagnostics
import PrecompileHost.Dispatch.Lemmas
import PrecompileHost.Host.Lemmas
import PrecompileHost.Registry.Lemmas
import PrecompileHost.State.Lemmas
import PrecompileHost.Text.Lemmas
import PrecompileHost.Text.Numeral
import PrecompileHost.Word.Lemmas
import PrecompileHost.Proofs.Execution
import PrecompileHost.Proofs.Transcript
import PrecompileHost.Proofs.Atomicity
import PrecompileHost.Proofs.GasLedger
import PrecompileHost.Proofs.Isolation
import PrecompileHost.Proofs.Discipline
import PrecompileHost.Proofs.Chronicle
import PrecompileHost.Proofs.Session
import PrecompileHost.Proofs.Success
import PrecompileHost.Proofs.TokenDuality.Effects
import PrecompileHost.Proofs.TokenDuality.BlockCap
import PrecompileHost.Proofs.CallDepth
import PrecompileHost.Proofs.Asked
import PrecompileHost.Proofs.Mint.Effects
import PrecompileHost.Proofs.Installation
import PrecompileHost.Proofs.Supply
import PrecompileHost.Proofs.Attribution
import PrecompileHost.Proofs.Authority
import PrecompileHost.Proofs.Frames
import PrecompileHost.Proofs.Lineage
import PrecompileHost.Proofs.Silence
import PrecompileHost.Proofs.Invalidation
import PrecompileHost.Proofs.Failure
import PrecompileHost.Proofs.TokenDuality.Refusals
import PrecompileHost.Proofs.Mint.Refusals
import PrecompileHost.Proofs.Leaves
import PrecompileHost.Proofs.SpareGas
import PrecompileHost.Proofs.Calldata
import PrecompileHost.Proofs.Configuration
import PrecompileHost.Proofs.ConfigurationText
import PrecompileHost.Proofs.Flavours
import PrecompileHost.Proofs.Hindsight
import PrecompileHost.Proofs.TokenDuality.Allowlist
import PrecompileHost.Proofs.StaleSnapshots
import PrecompileHost.Proofs.Activation
import PrecompileHost.Proofs.Funding
import PrecompileHost.Proofs.Checks
import PrecompileHost.Proofs.Mint.Settlement
import PrecompileHost.Proofs.TokenDuality.Settlement
import PrecompileHost.Proofs.TokenDuality.BlockTotal
import PrecompileHost.Proofs.DepthSetting
import PrecompileHost.Proofs.NestedSnapshots
import PrecompileHost.Proofs.Throughout
import PrecompileHost.Proofs.CanonicalStorage
