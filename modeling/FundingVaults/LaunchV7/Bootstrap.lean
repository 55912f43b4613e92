import FundingVaults.LaunchV7.Capacity
import FundingVaults.LaunchV7.Governance

/-!
# Admission of a prepared configuration

Transcription of `bootstrap.rs`.  The build feature `test-profile` is a parameter.
-/

namespace FundingVaults.LaunchV7.Bootstrap

def validate (chain : Chain) (testProfile : Bool) (p : LaunchPreparationV7) (mint : Mint)
    (now : I64) : Result Unit := do
  require testProfile LaunchError.ExperimentalProfileDisabled
  let config := p.config
  require (config.t0 > now) LaunchError.T0Boundary
  let _ ← okOr (config.t0.checkedAdd CLIFF) LaunchError.Overflow
  validateRules config
  Governance.validateRecoveryKeys config.recoveryKeys
  Governance.validateRecoveryKeys config.founderRecoveryKeys
  require (p.founder ∉ config.founderRecoveryKeys) LaunchError.InvalidConfig
  Governance.validateRecoveryKeys config.treasuryRecoveryKeys
  require (p.treasury ∉ config.treasuryRecoveryKeys) LaunchError.InvalidConfig
  let principal ← okOr (config.founderAmount.checkedAdd config.treasuryAmount) LaunchError.Overflow
  require (principal ≤ mint.supply) LaunchError.InvalidConfig
  require (config.founderAmount > 0 ∧ config.treasuryAmount > 0 ∧ config.founderPeriodCap > 0 ∧
    config.founderPeriodCap ≤ config.founderAmount ∧ config.treasuryPeriodCap > 0 ∧
    config.treasuryPeriodCap ≤ config.treasuryAmount ∧ config.sharedHardCap > 0 ∧
    1 ≤ config.maxReportAge.val ∧ config.maxReportAge.val ≤ 7 * 86400 ∧
    p.specHash ≠ Bytes32.zero ∧ p.oracle ≠ Bytes32.zero) LaunchError.InvalidConfig
  require (mint.mintAuthority = none ∧ mint.freezeAuthority = none) LaunchError.MintAuthorityLive
  require (identity chain p.creator p.mint p.founder p.treasury p.oracle p.specHash config =
    p.identity) LaunchError.IdentityMismatch

end FundingVaults.LaunchV7.Bootstrap
