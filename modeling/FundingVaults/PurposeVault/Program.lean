import FundingVaults.PurposeVault.State

/-!
# The instructions of the purpose vault

Transcription of the eight instructions of `purpose-vault`: the accounts that each one names, the
checks the framework makes on them, and the handlers.  A handler returns the accounts it changes
and, where it pays, the token transfer it requests.
-/

namespace FundingVaults.PurposeVault

open Anchor

/-! ## Opening a policy -/

structure OpenPolicy where
  authority : Pubkey
  oracle : Pubkey
  mint : Account Mint
  policy : Init
  market : Init

structure OpenPolicy.Keys where
  authority : Pubkey
  oracle : Pubkey
  mint : Pubkey
  policy : Pubkey
  market : Pubkey

structure OpenPolicy.Args where
  policySpecHash : Bytes32
  marketCapacityBps : U16
  maxAgeSeconds : I64
  hardCeiling : U64
  silenceFloor : U64
  silenceGraceSeconds : I64

def OpenPolicy.load (chain : Chain) (L : Ledger Stored) (signers : List Pubkey) (k : Keys)
    (args : Args) : Result CovenantError OpenPolicy := do
  signer signers k.authority
  let mint ← loadMint L.tokens k.mint
  let hash := boundPolicyHash chain k.authority k.mint args.policySpecHash
  let policy ← loadInit chain ID L.vacant (policySeeds hash) k.policy
  -- The policy account is created first, and its address is taken from then on.
  let market ← loadInit chain ID (fun key ↦ L.vacant key && key ≠ k.policy) (marketSeeds hash)
    k.market
  pure { authority := k.authority, oracle := k.oracle, mint, policy, market }

/-- Either both the floor and its grace are declared, or neither is. -/
def OpenPolicy.Args.graceDeclared (args : Args) : Bool :=
  if args.silenceFloor > 0 then
    MIN_SILENCE_GRACE_SECONDS ≤ args.silenceGraceSeconds.val &&
      args.silenceGraceSeconds.val ≤ MAX_SILENCE_GRACE_SECONDS
  else args.silenceGraceSeconds = 0

def openPolicyHandler (chain : Chain) (now : I64) (ctx : OpenPolicy) (args : OpenPolicy.Args) :
    Result CovenantError (PolicyWindow × MarketInput) := do
  require (args.policySpecHash ≠ Bytes32.zero) CovenantError.ZeroPolicyHash
  let policyHash := boundPolicyHash chain ctx.authority ctx.mint.key args.policySpecHash
  require (args.hardCeiling > 0) CovenantError.ZeroHardCeiling
  require args.graceDeclared CovenantError.InvalidSilenceGrace
  require (1 ≤ args.marketCapacityBps ∧ args.marketCapacityBps ≤ MAX_MARKET_CAPACITY_BPS)
    CovenantError.InvalidMarketCapacityRate
  require (1 ≤ args.maxAgeSeconds.val ∧ args.maxAgeSeconds.val ≤ MAX_INPUT_AGE_CEILING_SECONDS)
    CovenantError.InvalidInputAge
  pure ({
    authority := ctx.authority
    mint := ctx.mint.key
    policyHash
    genesisTs := now
    currentPeriodIndex := 0
    releasedThisPeriod := 0
    hardCeiling := args.hardCeiling
    silenceFloor := args.silenceFloor
    silenceGraceSeconds := args.silenceGraceSeconds
    vaultCount := 0
    bump := ctx.policy.bump }, {
    oracle := ctx.oracle
    policyHash
    eligibleVolume := 0
    updatedAt := 0
    maxAgeSeconds := args.maxAgeSeconds
    reportCount := 0
    marketCapacityBps := args.marketCapacityBps
    bump := ctx.market.bump
    pendingOracle := Bytes32.zero
    pendingSince := 0 })

/-! ## The oracle -/

structure ReportVolume.Keys where
  oracle : Pubkey
  market : Pubkey

def ReportVolume.load (chain : Chain) (L : Ledger Stored) (signers : List Pubkey) (k : Keys) :
    Result CovenantError (Account MarketInput) := do
  signer signers k.oracle
  let market ← loadAs L.program Stored.market? k.market
  hasOne market.data.oracle k.oracle
  checkSeeds chain ID (marketSeeds market.data.policyHash) market.data.bump k.market
  pure market

def reportVolumeHandler (now : I64) (market : MarketInput) (eligibleVolume : U64) :
    Result CovenantError MarketInput := do
  let reportCount ← okOr (market.reportCount.checkedAdd 1) CovenantError.ArithmeticOverflow
  pure { market with eligibleVolume, updatedAt := now, reportCount }

structure ProposeOracle.Keys where
  policyAuthority : Pubkey
  policy : Pubkey
  market : Pubkey

def ProposeOracle.load (chain : Chain) (L : Ledger Stored) (signers : List Pubkey) (k : Keys) :
    Result CovenantError (Account MarketInput) := do
  signer signers k.policyAuthority
  let policy ← loadAs L.program Stored.policy? k.policy
  let market ← loadAs L.program Stored.market? k.market
  checkSeeds chain ID (policySeeds policy.data.policyHash) policy.data.bump k.policy
  require (policy.data.authority = k.policyAuthority) CovenantError.WrongPolicyAuthority
  checkSeeds chain ID (marketSeeds market.data.policyHash) market.data.bump k.market
  require (market.data.policyHash = policy.data.policyHash) CovenantError.WrongPolicyAuthority
  pure market

def proposeOracleHandler (now : I64) (market : MarketInput) (newOracle : Pubkey) :
    Result CovenantError MarketInput := do
  require (newOracle ≠ Bytes32.zero) CovenantError.ZeroOracle
  -- The event announces the time from which the proposal may be executed.
  let _effectiveFrom ← okOr (I64.ofInt? (now.val + ORACLE_ROTATION_NOTICE_SECONDS))
    CovenantError.ArithmeticOverflow
  pure { market with pendingOracle := newOracle, pendingSince := now }

def ExecuteOracleRotation.load (chain : Chain) (L : Ledger Stored) (key : Pubkey) :
    Result CovenantError (Account MarketInput) := do
  let market ← loadAs L.program Stored.market? key
  checkSeeds chain ID (marketSeeds market.data.policyHash) market.data.bump key
  pure market

def executeOracleRotationHandler (now : I64) (market : MarketInput) :
    Result CovenantError MarketInput := do
  require (market.pendingOracle ≠ Bytes32.zero) CovenantError.NoPendingRotation
  let waited ← okOr (now.checkedSub market.pendingSince) CovenantError.InvalidClock
  require (waited.val ≥ ORACLE_ROTATION_NOTICE_SECONDS) CovenantError.RotationNoticeActive
  pure { market with oracle := market.pendingOracle, pendingOracle := Bytes32.zero, pendingSince := 0 }

/-! ## Deposit -/

structure Deposit where
  depositor : Pubkey
  authority : Pubkey
  mint : Account Mint
  depositorToken : Account TokenAccount
  policy : Account PolicyWindow
  vault : Init
  vaultToken : Init

structure Deposit.Keys where
  depositor : Pubkey
  policyAuthority : Pubkey
  authority : Pubkey
  mint : Pubkey
  depositorToken : Pubkey
  policy : Pubkey
  vault : Pubkey
  vaultToken : Pubkey

structure Deposit.Args where
  kind : VaultKind
  amount : U64
  annualReleaseBps : U16
  cliffSeconds : I64

def Deposit.load (chain : Chain) (L : Ledger Stored) (signers : List Pubkey) (k : Keys)
    (kind : VaultKind) : Result CovenantError Deposit := do
  signer signers k.depositor
  signer signers k.policyAuthority
  let mint ← loadMint L.tokens k.mint
  let depositorToken ← loadToken L.tokens k.depositorToken k.mint
  tokenAuthority depositorToken k.depositor
  let policy ← loadAs L.program Stored.policy? k.policy
  checkSeeds chain ID (policySeeds policy.data.policyHash) policy.data.bump k.policy
  hasOne policy.data.mint k.mint
  require (policy.data.authority = k.policyAuthority) CovenantError.WrongPolicyAuthority
  let vault ← loadInit chain ID L.vacant
    (vaultSeeds policy.data.policyHash kind k.authority k.mint) k.vault
  let vaultToken ← loadInit chain ID (fun key ↦ L.vacant key && key ≠ k.vault) (tokenSeeds k.vault)
    k.vaultToken
  pure { depositor := k.depositor, authority := k.authority, mint, depositorToken, policy, vault,
         vaultToken }

/-- The cliff that a vault of the kind may have. -/
def VaultKind.checkCliff (kind : VaultKind) (cliffSeconds : I64) : Result CovenantError Unit :=
  match kind with
  | .Beneficiary => require (cliffSeconds.val ≥ MIN_CLIFF_SECONDS) CovenantError.CliffTooShort
  | .Purpose => require (cliffSeconds = 0) CovenantError.PurposeCliffNotZero

def depositHandler (now : I64) (ctx : Deposit) (args : Deposit.Args) :
    Result CovenantError (CovenantVault × TransferChecked) := do
  require (ctx.mint.data.mintAuthority = none) CovenantError.MintAuthorityRetained
  require (ctx.mint.data.freezeAuthority = none) CovenantError.FreezeAuthorityRetained
  require (args.amount > 0) CovenantError.ZeroAmount
  require (1 ≤ args.annualReleaseBps ∧ args.annualReleaseBps ≤ MAX_ANNUAL_RELEASE_BPS)
    CovenantError.InvalidAnnualReleaseRate
  args.kind.checkCliff args.cliffSeconds
  let cap ← monthlyCap args.amount args.annualReleaseBps
  require (cap > 0) CovenantError.ZeroMonthlyCap
  let cliffEndTs ← okOr (now.checkedAdd args.cliffSeconds) CovenantError.ArithmeticOverflow
  pure ({
    kind := args.kind
    depositor := ctx.depositor
    authority := ctx.authority
    mint := ctx.mint.key
    policyHash := ctx.policy.data.policyHash
    depositedAmount := args.amount
    monthlyCap := cap
    releasedTotal := 0
    releasedThisPeriod := 0
    currentPeriodIndex := 0
    genesisTs := now
    cliffEndTs
    annualReleaseBps := args.annualReleaseBps
    mintDecimals := ctx.mint.data.decimals
    stateBump := ctx.vault.bump
    tokenVaultBump := ctx.vaultToken.bump }, {
    source := ctx.depositorToken.key
    mint := ctx.mint.key
    destination := ctx.vaultToken.key
    authority := ctx.depositor
    amount := args.amount.val
    decimals := ctx.mint.data.decimals })

/-- The policy counts its vaults. -/
def countVault (policy : PolicyWindow) : Result CovenantError PolicyWindow := do
  let vaultCount ← okOr (policy.vaultCount.checkedAdd 1) CovenantError.ArithmeticOverflow
  pure { policy with vaultCount }

/-! ## Approval -/

structure Approve where
  approver : Pubkey
  vault : Account CovenantVault
  policy : Account PolicyWindow
  destination : Account TokenAccount
  approval : Init

structure Approve.Keys where
  approver : Pubkey
  mint : Pubkey
  vault : Pubkey
  policy : Pubkey
  destination : Pubkey
  approval : Pubkey

def Approve.load (chain : Chain) (L : Ledger Stored) (signers : List Pubkey) (k : Keys)
    (periodIndex : U64) : Result CovenantError Approve := do
  signer signers k.approver
  let _mint ← loadMint L.tokens k.mint
  let vault ← loadAs L.program Stored.vault? k.vault
  checkSeeds chain ID (vaultSeeds vault.data.policyHash vault.data.kind k.approver k.mint)
    vault.data.stateBump k.vault
  hasOne vault.data.mint k.mint
  let policy ← loadAs L.program Stored.policy? k.policy
  checkSeeds chain ID (policySeeds vault.data.policyHash) policy.data.bump k.policy
  let destination ← loadToken L.tokens k.destination k.mint
  let approval ← loadInit chain ID L.vacant (approvalSeeds k.vault periodIndex) k.approval
  pure { approver := k.approver, vault, policy, destination, approval }

def approveHandler (now : I64) (ctx : Approve) (periodIndex approvedNeed : U64) :
    Result CovenantError Approval := do
  require (ctx.vault.data.kind = .Purpose) CovenantError.WrongVaultKind
  require (approvedNeed > 0) CovenantError.ZeroAmount
  require (ctx.destination.data.owner ≠ ctx.approver) CovenantError.ApproverIsPayee
  let current ← PurposeVault.periodIndex now ctx.policy.data.genesisTs
  require (periodIndex > current) CovenantError.ApprovalPeriodTooSoon
  pure {
    vault := ctx.vault.key
    approver := ctx.approver
    destination := ctx.destination.key
    periodIndex
    approvedNeed
    consumed := 0
    createdAt := now
    bump := ctx.approval.bump }

/-! ## Release -/

structure Release where
  authority : Pubkey
  mint : Account Mint
  vault : Account CovenantVault
  policy : Account PolicyWindow
  market : Account MarketInput
  vaultToken : Account TokenAccount
  destination : Account TokenAccount

structure Release.Keys where
  /-- The beneficiary or the approver. -/
  authority : Pubkey
  mint : Pubkey
  vault : Pubkey
  policy : Pubkey
  market : Pubkey
  vaultToken : Pubkey
  destination : Pubkey

/-- The accounts that both kinds of release name. -/
def Release.load (chain : Chain) (L : Ledger Stored) (signers : List Pubkey) (k : Keys) :
    Result CovenantError Release := do
  signer signers k.authority
  let mint ← loadMint L.tokens k.mint
  let vault ← loadAs L.program Stored.vault? k.vault
  checkSeeds chain ID (vaultSeeds vault.data.policyHash vault.data.kind k.authority k.mint)
    vault.data.stateBump k.vault
  hasOne vault.data.mint k.mint
  let policy ← loadAs L.program Stored.policy? k.policy
  checkSeeds chain ID (policySeeds vault.data.policyHash) policy.data.bump k.policy
  let market ← loadAs L.program Stored.market? k.market
  checkSeeds chain ID (marketSeeds vault.data.policyHash) market.data.bump k.market
  let vaultToken ← loadToken L.tokens k.vaultToken k.mint
  checkSeeds chain ID (tokenSeeds k.vault) vault.data.tokenVaultBump k.vaultToken
  tokenAuthority vaultToken k.vault
  let destination ← loadToken L.tokens k.destination k.mint
  pure { authority := k.authority, mint, vault, policy, market, vaultToken, destination }

structure ReleaseGate where
  policy : PolicyWindow
  vault : CovenantVault
  market : MarketInput

/-- What a policy and its market input say about the shared window. -/
def PolicyWindow.inputs (policy : PolicyWindow) (market : MarketInput) (now : I64) :
    WindowInputs where
  now
  updatedAt := market.updatedAt
  reportCount := market.reportCount
  maxAgeSeconds := market.maxAgeSeconds
  eligibleVolume := market.eligibleVolume
  marketCapacityBps := market.marketCapacityBps
  hardCeiling := policy.hardCeiling
  silenceFloor := policy.silenceFloor
  silenceGraceSeconds := policy.silenceGraceSeconds

/-- The policy once the period has come. -/
def PolicyWindow.roll (p : PolicyWindow) (period : U64) : PolicyWindow :=
  if period > p.currentPeriodIndex then
    { p with currentPeriodIndex := period, releasedThisPeriod := 0 }
  else p

/-- The vault once the period has come. -/
def CovenantVault.roll (v : CovenantVault) (period : U64) : CovenantVault :=
  if period > v.currentPeriodIndex then
    { v with currentPeriodIndex := period, releasedThisPeriod := 0 }
  else v

def applyRelease (gate : ReleaseGate) (now : I64) (period amount : U64) :
    Result CovenantError (PolicyWindow × CovenantVault) := do
  require (amount > 0) CovenantError.ZeroAmount
  let capacity ← windowCapacity (gate.policy.inputs gate.market now)
  let policy := gate.policy.roll period
  let vault := gate.vault.roll period
  let nextVaultPeriod ← okOr (vault.releasedThisPeriod.checkedAdd amount)
    CovenantError.ArithmeticOverflow
  require (nextVaultPeriod ≤ vault.monthlyCap) CovenantError.PeriodCapExceeded
  let nextTotal ← okOr (vault.releasedTotal.checkedAdd amount) CovenantError.ArithmeticOverflow
  require (nextTotal ≤ vault.depositedAmount) CovenantError.DepositExceeded
  let nextWindow ← okOr (policy.releasedThisPeriod.checkedAdd amount)
    CovenantError.ArithmeticOverflow
  require (nextWindow ≤ capacity) CovenantError.AggregateCapacityExceeded
  pure ({ policy with releasedThisPeriod := nextWindow },
    { vault with releasedThisPeriod := nextVaultPeriod, releasedTotal := nextTotal })

/-- The transfer that pays a release. -/
def Release.payout (ctx : Release) (amount : U64) : TransferChecked where
  source := ctx.vaultToken.key
  mint := ctx.mint.key
  destination := ctx.destination.key
  authority := ctx.vault.key
  amount := amount.val
  decimals := ctx.vault.data.mintDecimals

def ReleaseBeneficiary.load (chain : Chain) (L : Ledger Stored) (signers : List Pubkey)
    (k : Release.Keys) : Result CovenantError Release := do
  let ctx ← Release.load chain L signers k
  tokenAuthority ctx.destination k.authority
  pure ctx

def releaseBeneficiaryHandler (now : I64) (ctx : Release) (amount : U64) :
    Result CovenantError (PolicyWindow × CovenantVault) := do
  require (ctx.vault.data.kind = .Beneficiary) CovenantError.WrongVaultKind
  require (now ≥ ctx.vault.data.cliffEndTs) CovenantError.CliffActive
  let period ← periodIndex now ctx.policy.data.genesisTs
  applyRelease ⟨ctx.policy.data, ctx.vault.data, ctx.market.data⟩ now period amount

def ReleasePurpose.load (chain : Chain) (L : Ledger Stored) (signers : List Pubkey)
    (k : Release.Keys) (key : Pubkey) : Result CovenantError (Release × Account Approval) := do
  let ctx ← Release.load chain L signers k
  let approval ← loadAs L.program Stored.approval? key
  checkSeeds chain ID (approvalSeeds k.vault approval.data.periodIndex) approval.data.bump key
  hasOne approval.data.vault k.vault
  hasOne approval.data.approver k.authority
  pure (ctx, approval)

def releasePurposeHandler (now : I64) (ctx : Release) (approval : Approval) (amount : U64) :
    Result CovenantError (PolicyWindow × CovenantVault × Approval) := do
  require (ctx.vault.data.kind = .Purpose) CovenantError.WrongVaultKind
  require (approval.destination = ctx.destination.key) CovenantError.ApprovalDestinationMismatch
  require (ctx.destination.data.owner ≠ ctx.authority) CovenantError.ApproverIsPayee
  let period ← periodIndex now ctx.policy.data.genesisTs
  require (approval.periodIndex = period) CovenantError.ApprovalPeriodMismatch
  let notice ← okOr (now.checkedSub approval.createdAt) CovenantError.InvalidClock
  require (notice.val ≥ MIN_NOTICE_SECONDS) CovenantError.NoticePeriodActive
  let nextConsumed ← okOr (approval.consumed.checkedAdd amount) CovenantError.ArithmeticOverflow
  require (nextConsumed ≤ approval.approvedNeed) CovenantError.ApprovedNeedExceeded
  let (policy, vault) ←
    applyRelease ⟨ctx.policy.data, ctx.vault.data, ctx.market.data⟩ now period amount
  pure (policy, vault, { approval with consumed := nextConsumed })

/-! ## The program -/

inductive Instruction where
  | openPolicy (keys : OpenPolicy.Keys) (args : OpenPolicy.Args)
  | reportVolume (keys : ReportVolume.Keys) (eligibleVolume : U64)
  | proposeOracle (keys : ProposeOracle.Keys) (newOracle : Pubkey)
  | executeOracleRotation (market : Pubkey)
  | deposit (keys : Deposit.Keys) (args : Deposit.Args)
  | approve (keys : Approve.Keys) (periodIndex approvedNeed : U64)
  | releaseBeneficiary (keys : Release.Keys) (amount : U64)
  | releasePurpose (keys : Release.Keys) (approval : Pubkey) (amount : U64)

def process (chain : Chain) (L : Ledger Stored) (tx : Tx Instruction) :
    Result CovenantError (Ledger Stored) :=
  match tx.instruction with
  | .openPolicy keys args => do
      let ctx ← OpenPolicy.load chain L tx.signers keys args
      let (policy, market) ← openPolicyHandler chain tx.now ctx args
      pure ((L.write keys.policy (.policy policy)).write keys.market (.market market))
  | .reportVolume keys eligibleVolume => do
      let market ← ReportVolume.load chain L tx.signers keys
      let market ← reportVolumeHandler tx.now market.data eligibleVolume
      pure (L.write keys.market (.market market))
  | .proposeOracle keys newOracle => do
      let market ← ProposeOracle.load chain L tx.signers keys
      let market ← proposeOracleHandler tx.now market.data newOracle
      pure (L.write keys.market (.market market))
  | .executeOracleRotation key => do
      let market ← ExecuteOracleRotation.load chain L key
      let market ← executeOracleRotationHandler tx.now market.data
      pure (L.write key (.market market))
  | .deposit keys args => do
      let ctx ← Deposit.load chain L tx.signers keys args.kind
      let (vault, t) ← depositHandler tx.now ctx args
      let L ← (L.createToken keys.vaultToken keys.mint keys.vault).transfer chain t
      let policy ← countVault ctx.policy.data
      pure ((L.write keys.policy (.policy policy)).write keys.vault (.vault vault))
  | .approve keys periodIndex approvedNeed => do
      let ctx ← Approve.load chain L tx.signers keys periodIndex
      let approval ← approveHandler tx.now ctx periodIndex approvedNeed
      pure (L.write keys.approval (.approval approval))
  | .releaseBeneficiary keys amount => do
      let ctx ← ReleaseBeneficiary.load chain L tx.signers keys
      let (policy, vault) ← releaseBeneficiaryHandler tx.now ctx amount
      let L ← L.transfer chain (ctx.payout amount)
      pure ((L.write keys.policy (.policy policy)).write keys.vault (.vault vault))
  | .releasePurpose keys key amount => do
      let (ctx, approval) ← ReleasePurpose.load chain L tx.signers keys key
      let (policy, vault, approval) ← releasePurposeHandler tx.now ctx approval.data amount
      let L ← L.transfer chain (ctx.payout amount)
      pure (((L.write keys.policy (.policy policy)).write keys.vault (.vault vault)).write key
        (.approval approval))

/-- The program on a platform, among programs that move tokens as `external` allows. -/
def program (chain : Chain) (external : Ledger Stored → Tokens → Prop) :
    Program Stored Instruction CovenantError where
  toChain := chain
  process := process chain
  external

end FundingVaults.PurposeVault
