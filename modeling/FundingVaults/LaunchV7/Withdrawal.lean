import FundingVaults.LaunchV7.Contexts

/-!
# Withdrawal-key rotation

Transcription of `withdrawal.rs`: the proposal accounts and key records through which the
withdrawal key of a role is replaced, and the two eligibility checks that keep beneficiary keys
and treasury recipients apart.
-/

namespace FundingVaults.LaunchV7.Withdrawal

def prepareKey (ctx : PrepareWithdrawalKey) (subject : Pubkey) : Result WithdrawalKeyV7 := do
  require (subject ≠ Bytes32.zero) LaunchError.InvalidConfig
  require (ctx.policy.data.state ≠ CANCELLED) LaunchError.InvalidState
  pure { policy := ctx.policy.key
         subject
         historyMask := 0
         pendingMask := 0
         recipient := false
         bump := ctx.record.bump }

def quorum (p : LaunchPolicyV7) (role : U8) (a b : Pubkey) : Result Bool := do
  let keys ← p.withdrawalKeys role
  pure (a ≠ b ∧ a ∈ keys ∧ b ∈ keys)

def eligibleRecipient (p : LaunchPolicyV7) (r : WithdrawalKeyV7) : Result Unit :=
  require (r.subject ≠ p.founder ∧ r.subject ≠ p.treasury ∧
    r.subject ∉ p.config.founderRecoveryKeys ∧ r.subject ∉ p.config.treasuryRecoveryKeys ∧
    r.historyMask = 0 ∧ r.pendingMask = 0) LaunchError.KnownSelfPayment

def eligibleSuccessor (p : LaunchPolicyV7) (role : U8) (r : WithdrawalKeyV7) : Result Unit := do
  let owner ← p.ownerFor role
  let keys ← p.withdrawalKeys role
  require (r.subject ≠ Bytes32.zero ∧ r.subject ≠ owner ∧ r.historyMask &&& (1 <<< role) = 0 ∧
    ¬ r.recipient ∧ r.subject ∉ keys) LaunchError.IneligibleSuccessor

/-- The whole signed window must be safe, including a final-second admission. -/
def validateAdmission (validFrom validUntil now : I64) : Result Unit := do
  require (validFrom ≥ 0 ∧ validUntil ≥ validFrom) LaunchError.SubmissionWindow
  let width ← okOr (validUntil.checkedSub validFrom) LaunchError.Overflow
  require (width ≤ MAX_SUBMISSION_WINDOW ∧ validFrom ≤ now ∧ now ≤ validUntil)
    LaunchError.SubmissionWindow
  let _ ← okOr ((validUntil.checkedAdd CHANGE_NOTICE).bind
    fun t ↦ t.checkedAdd WITHDRAWAL_EXECUTION_WINDOW) LaunchError.Overflow

def propose (now : I64) (ctx : ProposeWithdrawal) (role : U8) (recovery : Bool)
    (nonce epoch : U64) (validFrom validUntil : I64) (predecessor : Pubkey) :
    Result (LaunchPolicyV7 × WithdrawalProposalV7 × WithdrawalKeyV7) := do
  let p ← ctx.policy.data.tick now
  require (p.state ≠ CANCELLED) LaunchError.InvalidState
  validateAdmission validFrom validUntil now
  let r ← p.withdrawalFor role
  require (r.pending = 0) LaunchError.InvalidChange
  let next ← okOr (r.sequence.checkedAdd 1) LaunchError.Overflow
  require (nonce = next ∧ epoch = r.epoch ∧ predecessor = r.current) LaunchError.InvalidChange
  let _ ← okOr (r.epoch.checkedAdd 1) LaunchError.Overflow
  let a := ctx.initiator
  let b := ctx.cosigner
  (if recovery then do
    let agreed ← quorum p role a b
    require agreed LaunchError.RecoveryQuorum
  else
    require (a = r.current ∧ b = r.current) LaunchError.WithdrawalAuthority
    : Result Unit)
  let record := ctx.successorRecord.data
  eligibleSuccessor p role record
  let executeAfter ← okOr (now.checkedAdd CHANGE_NOTICE) LaunchError.Overflow
  let expiresAt ← okOr (executeAfter.checkedAdd WITHDRAWAL_EXECUTION_WINDOW) LaunchError.Overflow
  pure ({ p with
      withdrawal := p.withdrawal.modify role
        fun r ↦ { r with pending := nonce, sequence := nonce } },
    { policy := ctx.policy.key
      role
      nonce
      epoch
      predecessor := r.current
      successor := ctx.successor
      recovery
      validFrom
      validUntil
      createdAt := now
      executeAfter
      expiresAt
      status := PROPOSAL_PENDING
      finishedAt := 0
      bump := ctx.proposal.bump },
    { record with pendingMask := record.pendingMask ||| (1 <<< role) })

def pending (p : LaunchPolicyV7) (q : WithdrawalProposalV7) (k : WithdrawalKeyV7) :
    Result Unit := do
  let r ← p.withdrawalFor q.role
  require (q.status = PROPOSAL_PENDING ∧ q.nonce = r.sequence ∧ q.nonce = r.pending ∧
    q.epoch = r.epoch ∧ q.predecessor = r.current ∧ q.finishedAt = 0 ∧
    k.pendingMask &&& (1 <<< q.role) ≠ 0) LaunchError.InvalidChange

def finish (p : LaunchPolicyV7) (q : WithdrawalProposalV7) (k : WithdrawalKeyV7) (status : U8)
    (now : I64) : LaunchPolicyV7 × WithdrawalProposalV7 × WithdrawalKeyV7 :=
  ({ p with withdrawal := p.withdrawal.modify q.role fun r ↦ { r with pending := 0 } },
    { q with status, finishedAt := now },
    { k with pendingMask := k.pendingMask &&& ~~~(1 <<< q.role) })

def execute (now : I64) (ctx : ExecuteWithdrawal) :
    Result (LaunchPolicyV7 × WithdrawalProposalV7 × WithdrawalKeyV7) := do
  let p ← ctx.policy.data.tick now
  require (p.state ≠ CANCELLED) LaunchError.InvalidState
  let q := ctx.proposal.data
  let k := ctx.successorRecord.data
  pending p q k
  require (now ≥ q.executeAfter ∧ now < q.expiresAt) LaunchError.WithdrawalWindow
  eligibleSuccessor p q.role k
  let r ← p.withdrawalFor q.role
  let epoch ← okOr (r.epoch.checkedAdd 1) LaunchError.Overflow
  let p := { p with
    withdrawal := p.withdrawal.modify q.role fun r ↦ { r with current := q.successor, epoch } }
  let k := { k with historyMask := k.historyMask ||| (1 <<< q.role) }
  pure (finish p q k PROPOSAL_EXECUTED now)

def cancel (now : I64) (ctx : CancelWithdrawal) :
    Result (LaunchPolicyV7 × WithdrawalProposalV7 × WithdrawalKeyV7) := do
  let p ← ctx.policy.data.tick now
  let q := ctx.proposal.data
  let k := ctx.successorRecord.data
  pending p q k
  let a := ctx.initiator
  let b := ctx.cosigner
  let agreed ← quorum p q.role a b
  let r ← p.withdrawalFor q.role
  require (agreed ∨ (a = b ∧ (a = q.successor ∨ (¬ q.recovery ∧ a = r.current))))
    LaunchError.WithdrawalAuthority
  pure (finish p q k PROPOSAL_CANCELLED now)

def expire (now : I64) (ctx : ExecuteWithdrawal) :
    Result (LaunchPolicyV7 × WithdrawalProposalV7 × WithdrawalKeyV7) := do
  let p ← ctx.policy.data.tick now
  let q := ctx.proposal.data
  let k := ctx.successorRecord.data
  pending p q k
  require (now ≥ q.expiresAt) LaunchError.WithdrawalWindow
  pure (finish p q k PROPOSAL_EXPIRED now)

end FundingVaults.LaunchV7.Withdrawal
