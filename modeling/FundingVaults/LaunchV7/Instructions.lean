import FundingVaults.LaunchV7.Bootstrap
import FundingVaults.LaunchV7.Withdrawal

/-!
# Instruction handlers

Transcription of the handlers of `lib.rs`.  A handler receives the checked accounts and returns
the account data it commits, together with the token transfer it requests if it makes one.  The
transaction is atomic, so the place of the transfer among the checks does not matter.
-/

namespace FundingVaults.LaunchV7

def preparePolicy (chain : Chain) (testProfile : Bool) (now : I64) (ctx : PreparePolicy)
    (config : LaunchConfig) (specHash identity : Bytes32) : Result LaunchPreparationV7 := do
  let preparation : LaunchPreparationV7 := {
    creator := ctx.creator
    mint := ctx.mint.key
    founder := ctx.founder
    treasury := ctx.treasury
    oracle := ctx.oracle
    identity
    specHash
    config
    bump := ctx.preparation.bump }
  Bootstrap.validate chain testProfile preparation ctx.mint.data now
  pure preparation

def openPreparedPolicy (chain : Chain) (testProfile : Bool) (now : I64)
    (ctx : OpenPreparedPolicy) : Result LaunchPolicyV7 := do
  let preparation := ctx.preparation.data
  Bootstrap.validate chain testProfile preparation ctx.mint.data now
  require (preparation.creator = ctx.creator ∧ preparation.mint = ctx.mint.key ∧
    preparation.founder = ctx.founder ∧ preparation.treasury = ctx.treasury ∧
    preparation.oracle = ctx.oracle) LaunchError.IdentityMismatch
  require (preparation.config.recoveryKeys =
    #v[ctx.recoveryOne, ctx.recoveryTwo, ctx.recoveryThree]) LaunchError.Unauthorized
  let role (current : Pubkey) : WithdrawalRole :=
    { current, epoch := 0, sequence := 0, pending := 0 }
  pure {
    creator := ctx.creator
    mint := ctx.mint.key
    founder := ctx.founder
    treasury := ctx.treasury
    oracle := ctx.oracle
    identity := preparation.identity
    specHash := preparation.specHash
    config := preparation.config
    state := PREPARED
    fundedMask := 0
    bump := ctx.policy.bump
    lastActionAt := now
    period := 0
    sharedUsed := 0
    reportPeriod := 0
    reportCapacity := 0
    reportAt := 0
    reportSequence := 0
    founderPeriodUsed := 0
    treasuryPeriodUsed := 0
    founderReleasedTotal := 0
    treasuryReleasedTotal := 0
    annualIndex := 0
    founderAnnualUsed := 0
    treasuryAnnualUsed := 0
    initialOracle := ctx.oracle
    controller := ctx.creator
    controllerEpoch := 0
    oracleEpoch := 0
    oracleActivatedAt := now
    reportEpoch := 0
    reportValid := false
    changeSequence := 0
    pendingChange := 0
    withdrawal := ⟨role ctx.founder, role ctx.treasury⟩
    approvalCount := 0 }

def deposit (now : I64) (ctx : Deposit) (role : U8) (amount : U64) :
    Result (LaunchPolicyV7 × LaunchVaultV7 × TransferChecked) := do
  let policy ← ctx.policy.data.tick now
  require (policy.state = PREPARED) LaunchError.InvalidState
  require (now < policy.config.t0) LaunchError.T0Boundary
  let current ← policy.withdrawalFor role
  policy.authenticateWithdrawal role ctx.authority current.epoch
  let principal ← policy.principalFor role
  require (amount = principal) LaunchError.WrongPrincipal
  require (ctx.mint.data.mintAuthority = none ∧ ctx.mint.data.freezeAuthority = none)
    LaunchError.MintAuthorityLive
  require (policy.fundedMask &&& (1 <<< role) = 0) LaunchError.PoolsNotFunded
  let authority ← policy.ownerFor role
  pure ({ policy with fundedMask := policy.fundedMask ||| (1 <<< role) },
    { policy := ctx.policy.key
      depositor := ctx.depositor
      authority
      role
      bump := ctx.vault.bump
      principal := amount
      releasedTotal := 0
      period := 0
      periodUsed := 0 },
    { source := ctx.source.key
      mint := ctx.mint.key
      destination := ctx.vaultToken.key
      authority := ctx.depositor
      amount := amount.val
      decimals := ctx.mint.data.decimals })

def arm (now : I64) (ctx : Control) : Result LaunchPolicyV7 := do
  let p ← ctx.policy.data.tick now
  require (p.state = PREPARED) LaunchError.InvalidState
  require (now < p.config.t0) LaunchError.T0Boundary
  -- Only an exact-principal transfer sets a bit, and nothing leaves a vault in PREPARED.
  require (p.fundedMask = 3) LaunchError.PoolsNotFunded
  pure { p with state := ARMED }

def activate (now : I64) (ctx : PolicyOnly) : Result LaunchPolicyV7 := do
  let p ← ctx.policy.data.tick now
  require (p.state = ARMED) LaunchError.InvalidState
  require (now ≥ p.config.t0) LaunchError.T0Boundary
  pure { p with state := ACTIVE }

def cancel (now : I64) (ctx : ConsentControl) : Result LaunchPolicyV7 := do
  let p ← ctx.policy.data.tick now
  require (p.state = PREPARED ∨ p.state = ARMED) LaunchError.InvalidState
  require (now < p.config.t0) LaunchError.T0Boundary
  pure { p with state := CANCELLED }

def expireUnarmed (now : I64) (ctx : PolicyOnly) : Result LaunchPolicyV7 := do
  let p ← ctx.policy.data.tick now
  require (p.state = PREPARED) LaunchError.InvalidState
  require (now ≥ p.config.t0) LaunchError.T0Boundary
  pure { p with state := CANCELLED }

def refund (now : I64) (ctx : Refund) : Result (LaunchPolicyV7 × TransferChecked) := do
  let p ← ctx.policy.data.tick now
  require (p.state = CANCELLED) LaunchError.InvalidState
  require (ctx.vault.data.releasedTotal = 0) LaunchError.InvalidState
  let amount := ctx.vaultToken.data.amount
  require (amount > 0) LaunchError.ZeroAmount
  pure (p,
    { source := ctx.vaultToken.key
      mint := ctx.mint.key
      destination := ctx.destination.key
      authority := ctx.vault.key
      amount
      decimals := ctx.mint.data.decimals })

def reportCapacity (now : I64) (ctx : Report) (capacity : U64) (observedAt : I64)
    (sequence epoch : U64) : Result LaunchPolicyV7 := do
  let p ← ctx.policy.data.tick now
  require (p.state = ACTIVE) LaunchError.InvalidState
  let period ← periodAt p.config.t0 now
  require (epoch = p.oracleEpoch ∧ observedAt ≥ p.oracleActivatedAt ∧
    sequence > p.reportSequence ∧ observedAt ≥ p.reportAt) LaunchError.InvalidReport
  let start ← periodStart p.config.t0 period
  require (observedAt ≥ start ∧ observedAt ≤ now) LaunchError.InvalidReport
  let age ← okOr (now.checkedSub observedAt) LaunchError.Overflow
  require (age ≤ p.config.maxReportAge) LaunchError.InvalidReport
  pure { p with
    reportPeriod := period
    reportCapacity := capacity
    reportAt := observedAt
    reportSequence := sequence
    reportEpoch := epoch
    reportValid := true }

def approveTreasury (now : I64) (ctx : ApproveTreasury) (period need authorityEpoch : U64) :
    Result (LaunchPolicyV7 × TreasuryApprovalV7 × WithdrawalKeyV7) := do
  let p ← ctx.policy.data.tick now
  require (p.state ≠ CANCELLED) LaunchError.InvalidState
  p.authenticateWithdrawal TREASURY ctx.treasury authorityEpoch
  Withdrawal.eligibleRecipient p ctx.recipientRecord.data
  require (need > 0) LaunchError.InvalidApproval
  -- Before T0 a notice may target period 0; after T0 only future periods.
  (if now ≥ p.config.t0 then do
    let current ← periodAt p.config.t0 now
    require (period > current) LaunchError.InvalidApproval
  else pure () : Result Unit)
  let next ← okOr (period.checkedAdd 1) LaunchError.Overflow
  let finish ← periodStart p.config.t0 next
  let mature ← okOr (now.checkedAdd PERIOD) LaunchError.Overflow
  require (mature < finish) LaunchError.InvalidApproval
  let approvalCount ← okOr (p.approvalCount.checkedAdd 1) LaunchError.Overflow
  pure ({ p with approvalCount },
    { policy := ctx.policy.key
      period
      recipient := ctx.recipient.key
      recipientOwner := ctx.recipient.data.owner
      need
      consumed := 0
      createdAt := now
      bump := ctx.approval.bump
      author := ctx.treasury
      authorEpoch := authorityEpoch },
    { ctx.recipientRecord.data with recipient := true })

/-- The treasury branch of `release`: the recipient's key record and the approval of the period
are checked against their canonical addresses, and the approval is consumed. -/
def releaseApproval (chain : Chain) (now : I64) (ctx : Release) (p : LaunchPolicyV7)
    (period amount : U64) : Result (Account TreasuryApprovalV7) := do
  let k ← okOr ctx.recipientRecord LaunchError.InvalidApproval
  let found := chain.findProgramAddress
    (Seeds.key ctx.policy.key ctx.destination.data.owner).bytes ID
  require (k.key = found.1 ∧ k.data.bump = found.2 ∧ k.data.policy = ctx.policy.key ∧
    k.data.subject = ctx.destination.data.owner ∧ k.data.recipient) LaunchError.InvalidApproval
  Withdrawal.eligibleRecipient p k.data
  let a ← okOr ctx.approval LaunchError.InvalidApproval
  let expected ← okOr
    (chain.createProgramAddress
      ((Seeds.approval ctx.policy.key period).bytes ++ [[a.data.bump]]) ID)
    LaunchError.InvalidApproval
  require (a.key = expected ∧ a.data.policy = ctx.policy.key ∧ a.data.period = period ∧
    a.data.recipient = ctx.destination.key ∧ a.data.recipientOwner = ctx.destination.data.owner)
    LaunchError.InvalidApproval
  let mature ← okOr (a.data.createdAt.checkedAdd PERIOD) LaunchError.Overflow
  require (now ≥ mature) LaunchError.InvalidApproval
  let consumed ← okOr (a.data.consumed.checkedAdd amount) LaunchError.Overflow
  require (consumed ≤ a.data.need) LaunchError.InvalidApproval
  pure { a with data := { a.data with consumed } }

def release (chain : Chain) (now : I64) (ctx : Release) (amount authorityEpoch : U64) :
    Result (LaunchPolicyV7 × LaunchVaultV7 × Option (Account TreasuryApprovalV7) ×
      TransferChecked) := do
  let p ← ctx.policy.data.tick now
  require (p.state = ACTIVE) LaunchError.InvalidState
  p.authenticateWithdrawal ctx.vault.data.role ctx.authority authorityEpoch
  require (now > p.config.t0) LaunchError.T0Boundary
  require (amount > 0) LaunchError.ZeroAmount
  let period ← periodAt p.config.t0 now
  let v := ctx.vault.data
  require (period ≥ p.period ∧ period ≥ v.period) LaunchError.ClockRollback
  require (p.reportValid ∧ p.reportEpoch = p.oracleEpoch ∧ p.reportSequence > 0 ∧
    p.reportPeriod = period ∧ p.reportAt ≤ now) LaunchError.InvalidReport
  let age ← okOr (now.checkedSub p.reportAt) LaunchError.Overflow
  require (age ≤ p.config.maxReportAge) LaunchError.InvalidReport
  let owner ← p.ownerFor v.role
  require (v.authority = owner) LaunchError.Unauthorized
  let approval ← (if v.role = FOUNDER then do
      let cliff ← okOr (p.config.t0.checkedAdd CLIFF) LaunchError.Overflow
      require (now ≥ cliff) LaunchError.CliffActive
      require (ctx.destination.data.owner = p.withdrawal.founder.current) LaunchError.Unauthorized
      require (ctx.approval.isNone ∧ ctx.recipientRecord.isNone) LaunchError.InvalidApproval
      pure none
    else if v.role = TREASURY then do
      let a ← releaseApproval chain now ctx p period amount
      pure (some a)
    else .error LaunchError.InvalidConfig : Result (Option (Account TreasuryApprovalV7)))
  let (p, v) ← consume p v now amount
  pure (p, v, approval,
    { source := ctx.vaultToken.key
      mint := ctx.mint.key
      destination := ctx.destination.key
      authority := ctx.vault.key
      amount := amount.val
      decimals := ctx.mint.data.decimals })

end FundingVaults.LaunchV7
