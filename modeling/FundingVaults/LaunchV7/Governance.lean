import FundingVaults.LaunchV7.Contexts

/-!
# Controller and oracle changes

Transcription of `governance.rs`: a change is accepted with the signature of the controller or of
two distinct recovery keys, waits ninety days and is then executed by anyone.
-/

namespace FundingVaults.LaunchV7.Governance

def validateRecoveryKeys (keys : Vector Pubkey 3) : Result Unit :=
  require ((keys.toList.all fun k ↦ k ≠ Bytes32.zero) ∧ keys.get 0 ≠ keys.get 1 ∧
    keys.get 0 ≠ keys.get 2 ∧ keys.get 1 ≠ keys.get 2) LaunchError.InvalidConfig

def quorum (p : LaunchPolicyV7) (first second : Pubkey) : Bool :=
  first ≠ second ∧ first ∈ p.config.recoveryKeys ∧ second ∈ p.config.recoveryKeys

def propose (now : I64) (ctx : ProposeChange) (kind : U8) (recovery : Bool) (nonce : U64) :
    Result (LaunchPolicyV7 × ChangeProposalV7) := do
  let p ← ctx.policy.data.tick now
  require (p.state ≠ CANCELLED) LaunchError.InvalidState
  require (p.pendingChange = 0) LaunchError.InvalidChange
  let next ← okOr (p.changeSequence.checkedAdd 1) LaunchError.Overflow
  require (nonce = next) LaunchError.InvalidChange
  let initiator := ctx.initiator
  let cosigner := ctx.cosigner
  (if recovery then
    require (quorum p initiator cosigner) LaunchError.RecoveryQuorum
  else
    require (initiator = p.controller ∧ cosigner = p.controller) LaunchError.Unauthorized
    : Result Unit)
  let successor := ctx.successor
  let current ← (if kind = CHANGE_ORACLE then .ok p.oracle
    else if kind = CHANGE_CONTROLLER then .ok p.controller
    else .error LaunchError.InvalidChange : Result Pubkey)
  require (successor ≠ Bytes32.zero ∧ successor ≠ current) LaunchError.InvalidChange
  let executeAfter ← okOr (now.checkedAdd CHANGE_NOTICE) LaunchError.Overflow
  pure ({ p with changeSequence := nonce, pendingChange := nonce },
    { policy := ctx.policy.key
      nonce
      kind
      recovery
      successor
      controllerEpoch := p.controllerEpoch
      oracleEpoch := p.oracleEpoch
      createdAt := now
      executeAfter
      status := PROPOSAL_PENDING
      bump := ctx.proposal.bump })

def pending (p : LaunchPolicyV7) (q : ChangeProposalV7) : Result Unit := do
  require (p.state ≠ CANCELLED) LaunchError.InvalidState
  require (q.status = PROPOSAL_PENDING ∧ p.pendingChange = q.nonce ∧ p.changeSequence = q.nonce ∧
    p.controllerEpoch = q.controllerEpoch ∧ p.oracleEpoch = q.oracleEpoch)
    LaunchError.InvalidChange

def cancel (now : I64) (ctx : CancelChange) : Result (LaunchPolicyV7 × ChangeProposalV7) := do
  let p ← ctx.policy.data.tick now
  let q := ctx.proposal.data
  pending p q
  let a := ctx.initiator
  let b := ctx.cosigner
  -- The quorum can evict a malicious normal proposal; the controller alone cannot veto a
  -- recovery proposal.
  require (quorum p a b ∨ (a = b ∧ (a = q.successor ∨ (¬ q.recovery ∧ a = p.controller))))
    LaunchError.Unauthorized
  pure ({ p with pendingChange := 0 }, { q with status := PROPOSAL_CANCELLED })

def execute (now : I64) (ctx : ExecuteChange) : Result (LaunchPolicyV7 × ChangeProposalV7) := do
  let p ← ctx.policy.data.tick now
  let q := ctx.proposal.data
  pending p q
  require (now ≥ q.executeAfter) LaunchError.ChangeNotice
  let p ← (if q.kind = CHANGE_ORACLE then do
      let epoch ← okOr (p.oracleEpoch.checkedAdd 1) LaunchError.Overflow
      -- The observation time and the global sequence stay: old timestamps never become fresh.
      pure { p with
        oracle := q.successor
        oracleEpoch := epoch
        oracleActivatedAt := now
        reportValid := false }
    else if q.kind = CHANGE_CONTROLLER then do
      let epoch ← okOr (p.controllerEpoch.checkedAdd 1) LaunchError.Overflow
      pure { p with controller := q.successor, controllerEpoch := epoch }
    else .error LaunchError.InvalidChange : Result LaunchPolicyV7)
  pure ({ p with pendingChange := 0 }, { q with status := PROPOSAL_EXECUTED })

end FundingVaults.LaunchV7.Governance
