import FundingVaults.Lib.Checked
import FundingVaults.Lib.Solana
import FundingVaults.Lib.Codec
import FundingVaults.Lib.Text
import FundingVaults.Lib.Reader
import FundingVaults.Lib.Apportion
import FundingVaults.Lib.Trace
import FundingVaults.Lib.Tally
import FundingVaults.Lib.Schedule
import FundingVaults.Lib.Token
import FundingVaults.Lib.Anchor
import FundingVaults.Lib.Platform
import FundingVaults.Lib.Loader
import FundingVaults.LaunchV7.State
import FundingVaults.LaunchV7.Capacity
import FundingVaults.LaunchV7.Identity
import FundingVaults.LaunchV7.Contexts
import FundingVaults.LaunchV7.Governance
import FundingVaults.LaunchV7.Withdrawal
import FundingVaults.LaunchV7.Bootstrap
import FundingVaults.LaunchV7.Instructions
import FundingVaults.LaunchV7.Program
import FundingVaults.LaunchV7.View
import FundingVaults.LaunchV7.Limits
import FundingVaults.LaunchV7.Machine
import FundingVaults.LaunchV7.Specs
import FundingVaults.LaunchV7.Refine
import FundingVaults.LaunchV7.Replay
import FundingVaults.LaunchV7.Caps
import FundingVaults.LaunchV7.Frame
import FundingVaults.LaunchV7.Rotation
import FundingVaults.LaunchV7.Records
import FundingVaults.LaunchV7.Keys
import FundingVaults.LaunchV7.Separation
import FundingVaults.LaunchV7.Changes
import FundingVaults.LaunchV7.Progress
import FundingVaults.LaunchV7.Lifecycle
import FundingVaults.LaunchV7.Custody
import FundingVaults.Beneficiary.Program
import FundingVaults.Beneficiary.Effects
import FundingVaults.Beneficiary.Runs
import FundingVaults.Beneficiary.Schedule
import FundingVaults.PurposeVault.State
import FundingVaults.PurposeVault.Program
import FundingVaults.PurposeVault.Effects
import FundingVaults.PurposeVault.Runs
import FundingVaults.PurposeVault.Books
import FundingVaults.PurposeVault.Invariant
import FundingVaults.PurposeVault.Window
import FundingVaults.PurposeVault.Rotation
import FundingVaults.UpgradeGate.Program
import FundingVaults.UpgradeGate.Effects
import FundingVaults.UpgradeGate.Machine
import FundingVaults.UpgradeGate.Gate
import FundingVaults.LaunchV7.Layout
import FundingVaults.Verifier.Accounts
import FundingVaults.Verifier.Codec
import FundingVaults.LaunchV7.Exact
import FundingVaults.LaunchV7.Pause
import FundingVaults.LaunchV7.Untouched
import FundingVaults.LaunchV7.Approvals
import FundingVaults.Lib.Quota
import FundingVaults.Covenant.Rule
import FundingVaults.PurposeVault.Custody
import FundingVaults.PurposeVault.Batch
import FundingVaults.Verifier.Address
import FundingVaults.Beneficiary.Exporter
import FundingVaults.Beneficiary.Verifier
import FundingVaults.Beneficiary.Observed
import FundingVaults.Lib.Json
import FundingVaults.Client.Submission
import FundingVaults.Client.Interleaving
import FundingVaults.Lib.Dict
import FundingVaults.Verifier.Exporter
import FundingVaults.Verifier.Identity
import FundingVaults.Verifier.Closure
import FundingVaults.Verifier.Quotas
import FundingVaults.Lib.Base58
import FundingVaults.Verifier.Base58
import FundingVaults.Lib.Pratt
import FundingVaults.Lib.Root
import FundingVaults.Verifier.Curve
import FundingVaults.Lib.Numeral
import FundingVaults.Covenant.Request
import FundingVaults.Lib.Drift
import FundingVaults.Soak.Journal
import FundingVaults.Soak.Steady
import FundingVaults.Lib.Buffer
import FundingVaults.Client.Identity
import FundingVaults.Client.Binding
import FundingVaults.Verifier.Layouts
import FundingVaults.LaunchV7.Admission
import FundingVaults.Lib.Clients
import FundingVaults.LaunchV7.Spending
import FundingVaults.LaunchV7.Order
import FundingVaults.Recovery.Authority
import FundingVaults.Recovery.Window
import FundingVaults.Recovery.Mirror
import FundingVaults.Recovery.Simulation
import FundingVaults.Verifier.Acceptance
import FundingVaults.Verifier.Ceilings
