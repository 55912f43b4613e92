import FundingVaults.LaunchV7.Identity

/-!
# Account layouts

The bytes of the seven kinds of accounts: the discriminator of the type's name and the fields in the
order of their declaration, and the preimage of a policy's identity.
-/

namespace FundingVaults.LaunchV7

/-- Anchor's tag of an account type. -/
def discriminator (chain : Chain) (name : String) : Bytes :=
  (chain.sha256 (ascii ("account:" ++ name))).bytes.take 8

variable (chain : Chain)

def LaunchPreparationV7.serialize (p : LaunchPreparationV7) : Bytes :=
  [discriminator chain "LaunchPreparationV7", p.creator.bytes, p.mint.bytes, p.founder.bytes,
    p.treasury.bytes, p.oracle.bytes, p.identity.bytes, p.specHash.bytes, p.config.serialize,
    U8.toLe p.bump].flatten

def WithdrawalRole.serialize (r : WithdrawalRole) : Bytes :=
  [r.current.bytes, U64.toLe r.epoch, U64.toLe r.sequence, U64.toLe r.pending].flatten

def LaunchPolicyV7.serialize (p : LaunchPolicyV7) : Bytes :=
  [discriminator chain "LaunchPolicyV7", p.creator.bytes, p.mint.bytes, p.founder.bytes,
    p.treasury.bytes, p.oracle.bytes, p.identity.bytes, p.specHash.bytes, p.config.serialize,
    U8.toLe p.state, U8.toLe p.fundedMask, U8.toLe p.bump, I64.toLe p.lastActionAt,
    U64.toLe p.period, U64.toLe p.sharedUsed, U64.toLe p.reportPeriod, U64.toLe p.reportCapacity,
    I64.toLe p.reportAt, U64.toLe p.reportSequence, U64.toLe p.founderPeriodUsed,
    U64.toLe p.treasuryPeriodUsed, U64.toLe p.founderReleasedTotal,
    U64.toLe p.treasuryReleasedTotal, U8.toLe p.annualIndex, U64.toLe p.founderAnnualUsed,
    U64.toLe p.treasuryAnnualUsed, p.initialOracle.bytes, p.controller.bytes,
    U64.toLe p.controllerEpoch, U64.toLe p.oracleEpoch, I64.toLe p.oracleActivatedAt,
    U64.toLe p.reportEpoch, boolToLe p.reportValid, U64.toLe p.changeSequence,
    U64.toLe p.pendingChange, p.withdrawal.founder.serialize ++ p.withdrawal.treasury.serialize,
    U64.toLe p.approvalCount].flatten

def WithdrawalProposalV7.serialize (q : WithdrawalProposalV7) : Bytes :=
  [discriminator chain "WithdrawalProposalV7", q.policy.bytes, U8.toLe q.role, U64.toLe q.nonce,
    U64.toLe q.epoch, q.predecessor.bytes, q.successor.bytes, boolToLe q.recovery,
    I64.toLe q.validFrom, I64.toLe q.validUntil, I64.toLe q.createdAt, I64.toLe q.executeAfter,
    I64.toLe q.expiresAt, U8.toLe q.status, I64.toLe q.finishedAt, U8.toLe q.bump].flatten

def WithdrawalKeyV7.serialize (k : WithdrawalKeyV7) : Bytes :=
  [discriminator chain "WithdrawalKeyV7", k.policy.bytes, k.subject.bytes, U8.toLe k.historyMask,
    U8.toLe k.pendingMask, boolToLe k.recipient, U8.toLe k.bump].flatten

def LaunchVaultV7.serialize (v : LaunchVaultV7) : Bytes :=
  [discriminator chain "LaunchVaultV7", v.policy.bytes, v.depositor.bytes, v.authority.bytes,
    U8.toLe v.role, U8.toLe v.bump, U64.toLe v.principal, U64.toLe v.releasedTotal,
    U64.toLe v.period, U64.toLe v.periodUsed].flatten

def TreasuryApprovalV7.serialize (a : TreasuryApprovalV7) : Bytes :=
  [discriminator chain "TreasuryApprovalV7", a.policy.bytes, U64.toLe a.period, a.recipient.bytes,
    a.recipientOwner.bytes, U64.toLe a.need, U64.toLe a.consumed, I64.toLe a.createdAt,
    U8.toLe a.bump, a.author.bytes, U64.toLe a.authorEpoch].flatten

def ChangeProposalV7.serialize (q : ChangeProposalV7) : Bytes :=
  [discriminator chain "ChangeProposalV7", q.policy.bytes, U64.toLe q.nonce, U8.toLe q.kind,
    boolToLe q.recovery, q.successor.bytes, U64.toLe q.controllerEpoch, U64.toLe q.oracleEpoch,
    I64.toLe q.createdAt, I64.toLe q.executeAfter, U8.toLe q.status, U8.toLe q.bump].flatten

/-- What the identity of a policy is the hash of. -/
def preimage (creator mint founder treasury oracle : Pubkey) (specHash : Bytes32)
    (config : LaunchConfig) : Bytes :=
  ascii "k4v-launch-policy-v7-test-profile-1" ++ ID.bytes ++ creator.bytes ++ mint.bytes ++
    founder.bytes ++ treasury.bytes ++ oracle.bytes ++ specHash.bytes ++ I64.toLe CLIFF ++
    I64.toLe PERIOD ++ U64.toLe RATE_DIVISOR ++ U16.toLe MAX_RELEASE_BPS ++ I64.toLe CHANGE_NOTICE ++
    [2] ++ I64.toLe WITHDRAWAL_EXECUTION_WINDOW ++ I64.toLe MAX_SUBMISSION_WINDOW ++ config.serialize

theorem identity_eq (creator mint founder treasury oracle : Pubkey) (specHash : Bytes32)
    (config : LaunchConfig) : identity chain creator mint founder treasury oracle specHash config =
      chain.sha256 (preimage creator mint founder treasury oracle specHash config) := rfl

/-! ## Lengths -/

variable {chain}

@[simp] theorem discriminator_length (name : String) : (discriminator chain name).length = 8 := by
  simp [discriminator, Bytes32.length_eq]

@[simp] theorem AnnualRule.serialize_length (r : AnnualRule) : r.serialize.length = 74 := by
  simp [AnnualRule.serialize, Bytes32.length_eq]

@[simp] theorem serializeKeys_length (keys : Vector Pubkey 3) :
    (serializeKeys keys).length = 96 := by
  simp only [serializeKeys, List.length_flatMap, Bytes32.length_eq, List.map_const',
    Vector.length_toList]
  rfl

@[simp] theorem LaunchConfig.serialize_length (c : LaunchConfig) : c.serialize.length = 492 := by
  simp only [LaunchConfig.serialize, List.length_append, I64.toLe_length, U64.toLe_length,
    serializeKeys_length, List.length_flatMap, AnnualRule.serialize_length, List.map_const',
    Vector.length_toList]
  rfl

@[simp] theorem WithdrawalRole.serialize_length (r : WithdrawalRole) : r.serialize.length = 56 := by
  simp [WithdrawalRole.serialize, Bytes32.length_eq]

end FundingVaults.LaunchV7
