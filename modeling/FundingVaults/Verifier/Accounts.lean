import FundingVaults.Lib.Reader
import FundingVaults.LaunchV7.Layout
import FundingVaults.Verifier.Address

/-!
# The account readers of the verifier

Transcription of the sequential readers of `launch_v7_verifier.py` and
`e11b_preparation_verifier.py`: the records they build, field by field, from the raw bytes of an
account.  Keys become base-58 text, digests of rules hexadecimal text, numbers integers.
-/

namespace FundingVaults.Verifier

/-! ## Records -/

inductive Reason where
  | TRUNCATED_ACCOUNT
  | TRAILING_ACCOUNT_BYTES
  | DISCRIMINATOR
  | REPORT_BOOL
  | PREPARATION_SIZE
  | RPC_WITHDRAWAL_LAYOUT
  | RPC_APPROVAL_LAYOUT
  | PREPARATION_CONFIG_CHANGED
  /-- A text that is no public key. -/
  | PUBKEY
  /-- A number that does not fit its format. -/
  | STRUCT
deriving DecidableEq, Repr

abbrev Result := Except Reason

structure Rule where
  startPeriod : ℤ
  endPeriod : ℤ
  founderBasis : ℤ
  treasuryBasis : ℤ
  sharedCap : ℤ
  releaseBps : ℤ
  sourceHash : String
deriving DecidableEq

structure Config where
  t0 : ℤ
  founderAmount : ℤ
  treasuryAmount : ℤ
  founderPeriodCap : ℤ
  treasuryPeriodCap : ℤ
  sharedHardCap : ℤ
  maxReportAge : ℤ
  annualRules : List Rule
  recoveryKeys : List String
  founderRecoveryKeys : List String
  treasuryRecoveryKeys : List String
deriving DecidableEq

structure Role where
  current : String
  epoch : ℤ
  sequence : ℤ
  pending : ℤ
deriving DecidableEq

structure Policy where
  creator : String
  mint : String
  founder : String
  treasury : String
  oracle : String
  identity : Bytes
  specHash : Bytes
  config : Config
  state : ℤ
  fundedMask : ℤ
  bump : ℤ
  lastActionAt : ℤ
  period : ℤ
  sharedUsed : ℤ
  reportPeriod : ℤ
  reportCapacity : ℤ
  reportAt : ℤ
  reportSequence : ℤ
  founderPeriodUsed : ℤ
  treasuryPeriodUsed : ℤ
  founderReleasedTotal : ℤ
  treasuryReleasedTotal : ℤ
  annualIndex : ℤ
  founderAnnualUsed : ℤ
  treasuryAnnualUsed : ℤ
  initialOracle : String
  controller : String
  controllerEpoch : ℤ
  oracleEpoch : ℤ
  oracleActivatedAt : ℤ
  reportEpoch : ℤ
  reportValid : Bool
  changeSequence : ℤ
  pendingChange : ℤ
  withdrawal : List Role
  approvalCount : ℤ
deriving DecidableEq

structure Vault where
  policy : String
  depositor : String
  authority : String
  role : ℤ
  bump : ℤ
  principal : ℤ
  releasedTotal : ℤ
  period : ℤ
  periodUsed : ℤ
deriving DecidableEq

structure Approval where
  policy : String
  period : ℤ
  recipient : String
  recipientOwner : String
  need : ℤ
  consumed : ℤ
  createdAt : ℤ
  bump : ℤ
  author : String
  authorEpoch : ℤ
deriving DecidableEq

structure Change where
  policy : String
  nonce : ℤ
  kind : ℤ
  recovery : ℤ
  successor : String
  controllerEpoch : ℤ
  oracleEpoch : ℤ
  createdAt : ℤ
  executeAfter : ℤ
  status : ℤ
  bump : ℤ
deriving DecidableEq

structure Withdrawal where
  policy : String
  role : ℤ
  nonce : ℤ
  epoch : ℤ
  predecessor : String
  successor : String
  recovery : ℤ
  validFrom : ℤ
  validUntil : ℤ
  createdAt : ℤ
  executeAfter : ℤ
  expiresAt : ℤ
  status : ℤ
  finishedAt : ℤ
  bump : ℤ
deriving DecidableEq

structure KeyRecord where
  policy : String
  subject : String
  historyMask : ℤ
  pendingMask : ℤ
  recipient : ℤ
  bump : ℤ
deriving DecidableEq

structure Preparation where
  creator : String
  mint : String
  founder : String
  treasury : String
  oracle : String
  identity : Bytes
  specHash : Bytes
  /-- The configuration is not decoded. -/
  config : Bytes
  bump : ℤ
deriving DecidableEq

/-! ## Fields -/

def take (count : ℕ) : Reader Reason Bytes := Reader.take .TRUNCATED_ACCOUNT count

def number (f : Format) : Reader Reason ℤ := Reader.number .TRUNCATED_ACCOUNT f

def key : Reader Reason String := do
  let bytes ← take 32
  pure (base58Encode bytes)

def finish : Reader Reason Unit := Reader.finish .TRAILING_ACCOUNT_BYTES

variable (chain : Chain)

/-- The reader of an account starts with the tag of its type. -/
def account (typename : String) : Reader Reason Unit := do
  let tag ← take 8
  Reader.check (tag = (chain.sha256 (ascii ("account:" ++ typename))).bytes.take 8) .DISCRIMINATOR

/-! ## Policies -/

def readRule : Reader Reason Rule := do
  let startPeriod ← number .Q
  let endPeriod ← number .Q
  let founderBasis ← number .Q
  let treasuryBasis ← number .Q
  let sharedCap ← number .Q
  let releaseBps ← number .H
  let sourceHash ← take 32
  pure { startPeriod, endPeriod, founderBasis, treasuryBasis, sharedCap, releaseBps
         sourceHash := hexEncode sourceHash }

/-- `read_config`, and the three groups of keys that `read_policy` adds to it. -/
def readConfig : Reader Reason Config := do
  let t0 ← number .q
  let founderAmount ← number .Q
  let treasuryAmount ← number .Q
  let founderPeriodCap ← number .Q
  let treasuryPeriodCap ← number .Q
  let sharedHardCap ← number .Q
  let maxReportAge ← number .q
  let annualRules ← readRule.times 2
  let recoveryKeys ← Reader.times key 3
  let founderRecoveryKeys ← Reader.times key 3
  let treasuryRecoveryKeys ← Reader.times key 3
  pure { t0, founderAmount, treasuryAmount, founderPeriodCap, treasuryPeriodCap, sharedHardCap
         maxReportAge, annualRules, recoveryKeys, founderRecoveryKeys, treasuryRecoveryKeys }

/-- The configuration, and its bytes: `data[start:pos]`. -/
def readConfigBytes : Reader Reason (Config × Bytes) := do
  let unread ← get
  let config ← readConfig
  let left ← get
  pure (config, unread.take (unread.length - left.length))

def readRole : Reader Reason Role := do
  let current ← key
  let epoch ← number .Q
  let sequence ← number .Q
  let pending ← number .Q
  pure { current, epoch, sequence, pending }

/-- The policy, and the bytes of its configuration. -/
def readPolicy : Reader Reason (Policy × Bytes) := do
  account chain "LaunchPolicyV7"
  let creator ← key
  let mint ← key
  let founder ← key
  let treasury ← key
  let oracle ← key
  let identity ← take 32
  let specHash ← take 32
  let (config, configBytes) ← readConfigBytes
  let state ← number .B
  let fundedMask ← number .B
  let bump ← number .B
  let lastActionAt ← number .q
  let period ← number .Q
  let sharedUsed ← number .Q
  let reportPeriod ← number .Q
  let reportCapacity ← number .Q
  let reportAt ← number .q
  let reportSequence ← number .Q
  let founderPeriodUsed ← number .Q
  let treasuryPeriodUsed ← number .Q
  let founderReleasedTotal ← number .Q
  let treasuryReleasedTotal ← number .Q
  let annualIndex ← number .B
  let founderAnnualUsed ← number .Q
  let treasuryAnnualUsed ← number .Q
  let initialOracle ← key
  let controller ← key
  let controllerEpoch ← number .Q
  let oracleEpoch ← number .Q
  let oracleActivatedAt ← number .q
  let reportEpoch ← number .Q
  let flag ← number .B
  Reader.check (flag = 0 ∨ flag = 1) .REPORT_BOOL
  let changeSequence ← number .Q
  let pendingChange ← number .Q
  let withdrawal ← readRole.times 2
  let approvalCount ← number .Q
  finish
  pure ({ creator, mint, founder, treasury, oracle, identity, specHash, config, state, fundedMask
          bump, lastActionAt, period, sharedUsed, reportPeriod, reportCapacity, reportAt
          reportSequence, founderPeriodUsed, treasuryPeriodUsed, founderReleasedTotal
          treasuryReleasedTotal, annualIndex, founderAnnualUsed, treasuryAnnualUsed
          initialOracle, controller, controllerEpoch, oracleEpoch, oracleActivatedAt, reportEpoch
          reportValid := flag ≠ 0, changeSequence, pendingChange, withdrawal, approvalCount },
    configBytes)

/-! ## The other accounts -/

def readVault : Reader Reason Vault := do
  account chain "LaunchVaultV7"
  let policy ← key
  let depositor ← key
  let authority ← key
  let role ← number .B
  let bump ← number .B
  let principal ← number .Q
  let releasedTotal ← number .Q
  let period ← number .Q
  let periodUsed ← number .Q
  finish
  pure { policy, depositor, authority, role, bump, principal, releasedTotal, period, periodUsed }

/-- The account that `read_approvals` reads for each name. -/
def readApproval : Reader Reason Approval := do
  account chain "TreasuryApprovalV7"
  let policy ← key
  let period ← number .Q
  let recipient ← key
  let recipientOwner ← key
  let need ← number .Q
  let consumed ← number .Q
  let createdAt ← number .q
  let bump ← number .B
  let author ← key
  let authorEpoch ← number .Q
  finish
  pure { policy, period, recipient, recipientOwner, need, consumed, createdAt, bump, author
         authorEpoch }

/-- The account that `verify_governance` reads for each nonce. -/
def readChange : Reader Reason Change := do
  account chain "ChangeProposalV7"
  let policy ← key
  let nonce ← number .Q
  let kind ← number .B
  let recovery ← number .B
  let successor ← key
  let controllerEpoch ← number .Q
  let oracleEpoch ← number .Q
  let createdAt ← number .q
  let executeAfter ← number .q
  let status ← number .B
  let bump ← number .B
  finish
  pure { policy, nonce, kind, recovery, successor, controllerEpoch, oracleEpoch, createdAt
         executeAfter, status, bump }

/-- The account that `verify_withdrawal` reads for each role and nonce. -/
def readWithdrawal : Reader Reason Withdrawal := do
  account chain "WithdrawalProposalV7"
  let policy ← key
  let role ← number .B
  let nonce ← number .Q
  let epoch ← number .Q
  let predecessor ← key
  let successor ← key
  let recovery ← number .B
  let validFrom ← number .q
  let validUntil ← number .q
  let createdAt ← number .q
  let executeAfter ← number .q
  let expiresAt ← number .q
  let status ← number .B
  let finishedAt ← number .q
  let bump ← number .B
  finish
  pure { policy, role, nonce, epoch, predecessor, successor, recovery, validFrom, validUntil
         createdAt, executeAfter, expiresAt, status, finishedAt, bump }

/-- The account that `verify_withdrawal` reads for each key. -/
def readKey : Reader Reason KeyRecord := do
  account chain "WithdrawalKeyV7"
  let policy ← key
  let subject ← key
  let historyMask ← number .B
  let pendingMask ← number .B
  let recipient ← number .B
  let bump ← number .B
  finish
  pure { policy, subject, historyMask, pendingMask, recipient, bump }

/-- The fields that `verify_preparation` reads from the account. -/
def readPreparation (data : Bytes) : Result Preparation :=
  Reader.all (do
    account chain "LaunchPreparationV7"
    Reader.check (data.length = 725) .PREPARATION_SIZE
    let creator ← key
    let mint ← key
    let founder ← key
    let treasury ← key
    let oracle ← key
    let identity ← take 32
    let specHash ← take 32
    let config ← take 492
    let bump ← number .B
    finish
    pure { creator, mint, founder, treasury, oracle, identity, specHash, config, bump }) data

end FundingVaults.Verifier
