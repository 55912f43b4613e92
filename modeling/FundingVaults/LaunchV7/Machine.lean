import FundingVaults.LaunchV7.Identity
import FundingVaults.LaunchV7.Limits
import FundingVaults.LaunchV7.View
import FundingVaults.Lib.Trace

/-!
# The machine of one policy

What the program does to a policy, seen from the policy alone: a machine whose states are views
and whose events are the accepted instructions, with the clock and the signers they saw.  Each
constructor of `Step` lists what its instruction requires of the policy's accounts and everything
it changes in them; token accounts and addresses do not appear, nor does the vault of a refund,
which changes no account of the program but the policy's clock.
-/

namespace FundingVaults.LaunchV7

/-! ## Events -/

/-- The arguments of `propose_withdrawal` and the accounts it names. -/
structure RotationRequest where
  role : Role
  recovery : Bool
  nonce : U64
  epoch : U64
  validFrom : I64
  validUntil : I64
  predecessor : Pubkey
  successor : Pubkey
  initiator : Pubkey
  cosigner : Pubkey

/-- The arguments of `propose_change` and the accounts it names. -/
structure ChangeRequest where
  kind : U8
  recovery : Bool
  nonce : U64
  successor : Pubkey
  initiator : Pubkey
  cosigner : Pubkey

/-- An instruction on a policy.  The proposals that an instruction names are given as stored. -/
inductive Act where
  | openPolicy
  | deposit (role : Role) (authority depositor : Pubkey) (amount : U64)
  | arm
  | activate
  | cancel
  | expireUnarmed
  | refund
  | report (oracle : Pubkey) (capacity : U64) (observedAt : I64) (sequence epoch : U64)
  | approve (treasury : Pubkey) (period need epoch : U64) (recipient owner : Pubkey)
  | release (role : Role) (authority : Pubkey) (amount epoch : U64) (destination owner : Pubkey)
  | prepareKey (subject : Pubkey)
  | propose (req : RotationRequest)
  | execute (role : Role) (q : WithdrawalProposalV7)
  | cancelRotation (role : Role) (q : WithdrawalProposalV7) (initiator cosigner : Pubkey)
  | expire (role : Role) (q : WithdrawalProposalV7)
  | proposeChange (req : ChangeRequest)
  | cancelChange (q : ChangeProposalV7) (initiator cosigner : Pubkey)
  | executeChange (q : ChangeProposalV7)

structure Event where
  now : I64
  signers : List Pubkey
  act : Act

/-! ## Opening -/

structure ValidRule (config : LaunchConfig) (rule : AnnualRule) : Prop where
  nonempty : rule.startPeriod < rule.endPeriod
  basis : ∀ r, rule.basis r ≤ config.principal r
  source : rule.sourceHash ≠ Bytes32.zero
  rate : rule.releaseBps ≤ MAX_RELEASE_BPS
  shared : rule.sharedCap.val ≤ rule.founderBasis.val * rule.releaseBps.val / 10000 +
    rule.treasuryBasis.val * rule.releaseBps.val / 10000
  fits : config.t0.val + rule.endPeriod.val * 2592000 < 2 ^ 63

structure ValidKeys (keys : Vector Pubkey 3) : Prop where
  nonzero : Bytes32.zero ∉ keys
  distinct : keys.toList.Nodup

/-- What `bootstrap::validate` establishes of a policy opened at `now`. -/
structure ValidPolicy (p : LaunchPolicyV7) (now : I64) : Prop where
  t0 : now < p.config.t0
  cliff : p.config.t0.val + 15552000 < 2 ^ 63
  start : (p.config.rule 0).startPeriod = 0
  contiguous : (p.config.rule 0).endPeriod = (p.config.rule 1).startPeriod
  rule : ∀ i : Fin 2, ValidRule p.config (p.config.rule i)
  recovery : ValidKeys p.config.recoveryKeys
  committee : ∀ r, ValidKeys (p.config.committee r)
  owner : ∀ r, p.owner r ∉ p.config.committee r
  total : p.config.founderAmount.val + p.config.treasuryAmount.val < 2 ^ 64
  principal : ∀ r, 0 < p.config.principal r
  periodCap : ∀ r, 0 < p.config.periodCap r ∧ p.config.periodCap r ≤ p.config.principal r
  hardCap : 0 < p.config.sharedHardCap
  reportAge : 1 ≤ p.config.maxReportAge.val ∧ p.config.maxReportAge.val ≤ 604800
  specHash : p.specHash ≠ Bytes32.zero
  oracle : p.oracle ≠ Bytes32.zero

/-- The withdrawal authority of a role at the opening. -/
def initialRole (current : Pubkey) : WithdrawalRole :=
  { current, epoch := 0, sequence := 0, pending := 0 }

/-- A policy as it is opened: every mutable field has its first value. -/
structure Opened (chain : Chain) (e : Event) (V : View) : Prop where
  act : e.act = .openPolicy
  signed : ∀ r, V.policy.owner r ∈ e.signers
  valid : ValidPolicy V.policy e.now
  identity : identity chain V.policy.creator V.policy.mint V.policy.founder V.policy.treasury
    V.policy.oracle V.policy.specHash V.policy.config = V.policy.identity
  policy : V.policy = { V.policy with
    state := PREPARED
    fundedMask := 0
    lastActionAt := e.now
    period := 0
    sharedUsed := 0
    reportPeriod := 0
    reportCapacity := 0
    reportAt := 0
    reportSequence := 0
    founderPeriodUsed := 0
    treasuryPeriodUsed := 0
    founderReleasedTotal := 0
    treasuryReleasedTotal := 0
    annualIndex := 0
    founderAnnualUsed := 0
    treasuryAnnualUsed := 0
    initialOracle := V.policy.oracle
    controller := V.policy.creator
    controllerEpoch := 0
    oracleEpoch := 0
    oracleActivatedAt := e.now
    reportEpoch := 0
    reportValid := false
    changeSequence := 0
    pendingChange := 0
    withdrawal := ⟨initialRole V.policy.founder, initialRole V.policy.treasury⟩
    approvalCount := 0 }
  vault : ∀ r, V.vault r = none
  approval : ∀ k, V.approval k = none
  change : ∀ n, V.change n = none
  proposal : ∀ r n, V.proposal r n = none
  record : ∀ k, V.record k = none

/-! ## Authority -/

namespace View

variable (V : View)

/-- The withdrawal authority of a role. -/
def role (r : Role) : WithdrawalRole := V.policy.withdrawal.get r

/-- `authenticate_withdrawal` accepts the signer. -/
structure Authentic (r : Role) (key : Pubkey) (epoch : U64) : Prop where
  unpaused : (V.role r).pending = 0
  current : (V.role r).current = key
  epoch : (V.role r).epoch = epoch

end View

/-- Two distinct keys of a committee. -/
def TwoOf (keys : Vector Pubkey 3) (a b : Pubkey) : Prop := a ≠ b ∧ a ∈ keys ∧ b ∈ keys

instance (keys : Vector Pubkey 3) (a b : Pubkey) : Decidable (TwoOf keys a b) :=
  inferInstanceAs (Decidable (_ ∧ _))

/-- `eligible_recipient`. -/
structure EligibleRecipient (p : LaunchPolicyV7) (k : WithdrawalKeyV7) : Prop where
  owner : ∀ r, k.subject ≠ p.owner r
  committee : ∀ r, k.subject ∉ p.config.committee r
  history : k.historyMask = 0
  pending : k.pendingMask = 0

/-- `eligible_successor`. -/
structure EligibleSuccessor (p : LaunchPolicyV7) (r : Role) (k : WithdrawalKeyV7) : Prop where
  nonzero : k.subject ≠ Bytes32.zero
  owner : k.subject ≠ p.owner r
  history : k.historyMask &&& r.bit = 0
  recipient : k.recipient = false
  committee : k.subject ∉ p.config.committee r

/-! ## Guards -/

structure DepositGuard (V : View) (now : I64) (signers : List Pubkey) (r : Role)
    (authority depositor : Pubkey) : Prop where
  tick : V.policy.lastActionAt ≤ now
  state : V.policy.state = PREPARED
  t0 : now < V.policy.config.t0
  unpaused : (V.role r).pending = 0
  current : (V.role r).current = authority
  unfunded : V.policy.fundedMask &&& r.bit = 0
  vacant : V.vault r = none
  signed : V.policy.controller ∈ signers ∧ depositor ∈ signers ∧ authority ∈ signers

structure ReportGuard (V : View) (now : I64) (signers : List Pubkey) (oracle : Pubkey)
    (observedAt : I64) (sequence epoch period : U64) : Prop where
  tick : V.policy.lastActionAt ≤ now
  state : V.policy.state = ACTIVE
  inPeriod : periodAt V.policy.config.t0 now = .ok period
  current : V.policy.oracle = oracle
  signed : oracle ∈ signers
  epoch : epoch = V.policy.oracleEpoch
  activated : V.policy.oracleActivatedAt ≤ observedAt
  sequence : V.policy.reportSequence < sequence
  latest : V.policy.reportAt ≤ observedAt
  start : V.policy.config.t0.val + period.val * 2592000 ≤ observedAt.val
  observed : observedAt ≤ now
  fresh : now.val - observedAt.val ≤ V.policy.config.maxReportAge.val

structure ApproveGuard (V : View) (now : I64) (signers : List Pubkey) (treasury : Pubkey)
    (period need epoch : U64) (owner : Pubkey) (k : WithdrawalKeyV7) : Prop where
  tick : V.policy.lastActionAt ≤ now
  state : V.policy.state ≠ CANCELLED
  authentic : V.Authentic .treasury treasury epoch
  signed : treasury ∈ signers
  record : V.record owner = some k
  subject : k.subject = owner
  eligible : EligibleRecipient V.policy k
  need : 0 < need
  future : V.policy.config.t0 ≤ now →
    ∃ current, periodAt V.policy.config.t0 now = .ok current ∧ current < period
  next : period.val + 1 < 2 ^ 64
  finish : V.policy.config.t0.val + (period.val + 1) * 2592000 < 2 ^ 63
  notice : now.val + 2592000 < V.policy.config.t0.val + (period.val + 1) * 2592000
  count : V.policy.approvalCount.val + 1 < 2 ^ 64
  vacant : V.approval period = none

/-- The checks of `release` that both roles share. -/
structure ReleaseGuard (V : View) (now : I64) (signers : List Pubkey) (r : Role)
    (authority : Pubkey) (amount epoch period : U64) (v : LaunchVaultV7) : Prop where
  tick : V.policy.lastActionAt ≤ now
  state : V.policy.state = ACTIVE
  authentic : V.Authentic r authority epoch
  signed : authority ∈ signers
  t0 : V.policy.config.t0 < now
  amount : 0 < amount
  inPeriod : periodAt V.policy.config.t0 now = .ok period
  policyPeriod : V.policy.period ≤ period
  vaultPeriod : v.period ≤ period
  reportValid : V.policy.reportValid = true
  reportEpoch : V.policy.reportEpoch = V.policy.oracleEpoch
  reportSequence : 0 < V.policy.reportSequence
  reportPeriod : V.policy.reportPeriod = period
  reportAt : V.policy.reportAt ≤ now
  fresh : now.val - V.policy.reportAt.val ≤ V.policy.config.maxReportAge.val
  vault : V.vault r = some v
  role : v.role = r.toU8
  owner : v.authority = V.policy.owner r

/-- The checks of `release` on the approval of a treasury release. -/
structure ApprovalGuard (V : View) (now : I64) (amount period : U64)
    (destination owner : Pubkey) (k : WithdrawalKeyV7) (a : TreasuryApprovalV7) : Prop where
  record : V.record owner = some k
  subject : k.subject = owner
  recipient : k.recipient = true
  eligible : EligibleRecipient V.policy k
  approval : V.approval period = some a
  period : a.period = period
  destination : a.recipient = destination
  owner : a.recipientOwner = owner
  mature : a.createdAt.val + 2592000 ≤ now.val
  need : a.consumed.val + amount.val ≤ a.need.val

structure ProposeGuard (V : View) (now : I64) (signers : List Pubkey) (req : RotationRequest)
    (k : WithdrawalKeyV7) : Prop where
  tick : V.policy.lastActionAt ≤ now
  state : V.policy.state ≠ CANCELLED
  positive : 0 ≤ req.validFrom
  width : req.validUntil.val - req.validFrom.val ≤ 300
  admitted : req.validFrom ≤ now ∧ now ≤ req.validUntil
  fits : req.validUntil.val + 10368000 < 2 ^ 63
  idle : (V.role req.role).pending = 0
  nonce : (V.role req.role).sequence.val + 1 = req.nonce.val
  epoch : req.epoch = (V.role req.role).epoch
  predecessor : req.predecessor = (V.role req.role).current
  epochFits : (V.role req.role).epoch.val + 1 < 2 ^ 64
  authority : if req.recovery then TwoOf (V.policy.config.committee req.role) req.initiator
    req.cosigner else req.initiator = (V.role req.role).current ∧
      req.cosigner = (V.role req.role).current
  signed : req.initiator ∈ signers ∧ req.cosigner ∈ signers ∧ req.successor ∈ signers
  record : V.record req.successor = some k
  subject : k.subject = req.successor
  eligible : EligibleSuccessor V.policy req.role k
  vacant : V.proposal req.role req.nonce = none

/-- `pending`: the stored proposal is the live one of its role. -/
structure Pending (V : View) (r : Role) (q : WithdrawalProposalV7) (k : WithdrawalKeyV7) :
    Prop where
  stored : V.proposal r q.nonce = some q
  role : q.role = r.toU8
  status : q.status = PROPOSAL_PENDING
  sequence : q.nonce = (V.role r).sequence
  nonce : q.nonce = (V.role r).pending
  epoch : q.epoch = (V.role r).epoch
  predecessor : q.predecessor = (V.role r).current
  unfinished : q.finishedAt = 0
  record : V.record q.successor = some k
  subject : k.subject = q.successor
  mask : k.pendingMask &&& r.bit ≠ 0

structure ProposeChangeGuard (V : View) (now : I64) (signers : List Pubkey) (req : ChangeRequest)
    (executeAfter : I64) : Prop where
  tick : V.policy.lastActionAt ≤ now
  state : V.policy.state ≠ CANCELLED
  idle : V.policy.pendingChange = 0
  nonce : V.policy.changeSequence.val + 1 = req.nonce.val
  authority : if req.recovery then TwoOf V.policy.config.recoveryKeys req.initiator req.cosigner
    else req.initiator = V.policy.controller ∧ req.cosigner = V.policy.controller
  signed : req.initiator ∈ signers ∧ req.cosigner ∈ signers ∧ req.successor ∈ signers
  nonzero : req.successor ≠ Bytes32.zero
  kind : (req.kind = CHANGE_ORACLE ∧ req.successor ≠ V.policy.oracle) ∨
    (req.kind = CHANGE_CONTROLLER ∧ req.successor ≠ V.policy.controller)
  executeAfter : now.val + 7776000 = executeAfter.val
  vacant : V.change req.nonce = none

/-- `pending` of `governance.rs`. -/
structure PendingChange (V : View) (q : ChangeProposalV7) : Prop where
  stored : V.change q.nonce = some q
  state : V.policy.state ≠ CANCELLED
  status : q.status = PROPOSAL_PENDING
  nonce : V.policy.pendingChange = q.nonce
  sequence : V.policy.changeSequence = q.nonce
  controllerEpoch : V.policy.controllerEpoch = q.controllerEpoch
  oracleEpoch : V.policy.oracleEpoch = q.oracleEpoch

/-! ## Steps -/

/-- `tick`, and then the role `r` gets the authority `w`. -/
def LaunchPolicyV7.setRole (p : LaunchPolicyV7) (now : I64) (r : Role) (w : WithdrawalRole) :
    LaunchPolicyV7 :=
  { p with lastActionAt := now, withdrawal := p.withdrawal.set r w }

/-- The view after a rotation is settled: the role gets the authority `w` and is unpaused, the
proposal is closed and the successor's pending bit is cleared. -/
def View.settle (V : View) (now : I64) (r : Role) (w : WithdrawalRole) (q : WithdrawalProposalV7)
    (k : WithdrawalKeyV7) (status : U8) : View :=
  ((V.put (.policy (V.policy.setRole now r { w with pending := 0 }))).put
    (.withdrawal { q with status, finishedAt := now })).put
    (.withdrawalKey { k with pendingMask := k.pendingMask &&& ~~~r.bit })

inductive Step (P : Pubkey) (V : View) : Event → View → Prop where
  | deposit {now : I64} {signers : List Pubkey} {r : Role} {authority depositor : Pubkey}
      {bump : U8} (guard : DepositGuard V now signers r authority depositor) :
      Step P V ⟨now, signers, .deposit r authority depositor (V.policy.config.principal r)⟩
        ((V.put (.policy { V.policy with
          lastActionAt := now, fundedMask := V.policy.fundedMask ||| r.bit })).put
          (.vault {
            policy := P
            depositor
            authority := V.policy.owner r
            role := r.toU8
            bump
            principal := V.policy.config.principal r
            releasedTotal := 0
            period := 0
            periodUsed := 0 }))
  | arm {now : I64} {signers : List Pubkey} (tick : V.policy.lastActionAt ≤ now)
      (state : V.policy.state = PREPARED) (t0 : now < V.policy.config.t0)
      (funded : V.policy.fundedMask = 3) (signed : V.policy.controller ∈ signers) :
      Step P V ⟨now, signers, .arm⟩
        (V.put (.policy { V.policy with lastActionAt := now, state := ARMED }))
  | activate {now : I64} {signers : List Pubkey} (tick : V.policy.lastActionAt ≤ now)
      (state : V.policy.state = ARMED) (t0 : V.policy.config.t0 ≤ now) :
      Step P V ⟨now, signers, .activate⟩
        (V.put (.policy { V.policy with lastActionAt := now, state := ACTIVE }))
  | cancel {now : I64} {signers : List Pubkey} (tick : V.policy.lastActionAt ≤ now)
      (state : V.policy.state = PREPARED ∨ V.policy.state = ARMED)
      (t0 : now < V.policy.config.t0)
      (signed : V.policy.controller ∈ signers ∧ ∀ r, (V.role r).current ∈ signers) :
      Step P V ⟨now, signers, .cancel⟩
        (V.put (.policy { V.policy with lastActionAt := now, state := CANCELLED }))
  | expireUnarmed {now : I64} {signers : List Pubkey} (tick : V.policy.lastActionAt ≤ now)
      (state : V.policy.state = PREPARED) (t0 : V.policy.config.t0 ≤ now) :
      Step P V ⟨now, signers, .expireUnarmed⟩
        (V.put (.policy { V.policy with lastActionAt := now, state := CANCELLED }))
  | refund {now : I64} {signers : List Pubkey} (tick : V.policy.lastActionAt ≤ now)
      (state : V.policy.state = CANCELLED) :
      Step P V ⟨now, signers, .refund⟩ (V.put (.policy { V.policy with lastActionAt := now }))
  | report {now : I64} {signers : List Pubkey} {oracle : Pubkey} {capacity : U64}
      {observedAt : I64} {sequence epoch period : U64}
      (guard : ReportGuard V now signers oracle observedAt sequence epoch period) :
      Step P V ⟨now, signers, .report oracle capacity observedAt sequence epoch⟩
        (V.put (.policy { V.policy with
          lastActionAt := now
          reportPeriod := period
          reportCapacity := capacity
          reportAt := observedAt
          reportSequence := sequence
          reportEpoch := epoch
          reportValid := true }))
  | approve {now : I64} {signers : List Pubkey} {treasury : Pubkey} {period need epoch : U64}
      {recipient owner : Pubkey} {k : WithdrawalKeyV7} {count : U64} {bump : U8}
      (guard : ApproveGuard V now signers treasury period need epoch owner k)
      (counted : V.policy.approvalCount.val + 1 = count.val) :
      Step P V ⟨now, signers, .approve treasury period need epoch recipient owner⟩
        (((V.put (.policy { V.policy with lastActionAt := now, approvalCount := count })).put
          (.approval {
            policy := P
            period
            recipient
            recipientOwner := owner
            need
            consumed := 0
            createdAt := now
            bump
            author := treasury
            authorEpoch := epoch })).put (.withdrawalKey { k with recipient := true }))
  | releaseFounder {now : I64} {signers : List Pubkey} {authority : Pubkey}
      {amount epoch period : U64} {destination : Pubkey} {v v' : LaunchVaultV7}
      {p' : LaunchPolicyV7}
      (guard : ReleaseGuard V now signers .founder authority amount epoch period v)
      (cliff : V.policy.config.t0.val + 15552000 ≤ now.val)
      (consumed : consume { V.policy with lastActionAt := now } v now amount = .ok (p', v')) :
      Step P V ⟨now, signers, .release .founder authority amount epoch destination
        (V.role .founder).current⟩
        ((V.put (.policy ({ V.policy with lastActionAt := now }.withCounters p'))).put
          (.vault (v.withCounters v')))
  | releaseTreasury {now : I64} {signers : List Pubkey} {authority : Pubkey}
      {amount epoch period : U64} {destination owner : Pubkey} {v v' : LaunchVaultV7}
      {p' : LaunchPolicyV7} {k : WithdrawalKeyV7} {a : TreasuryApprovalV7} {used : U64}
      (guard : ReleaseGuard V now signers .treasury authority amount epoch period v)
      (approved : ApprovalGuard V now amount period destination owner k a)
      (counted : a.consumed.val + amount.val = used.val)
      (consumed : consume { V.policy with lastActionAt := now } v now amount = .ok (p', v')) :
      Step P V ⟨now, signers, .release .treasury authority amount epoch destination owner⟩
        (((V.put (.policy ({ V.policy with lastActionAt := now }.withCounters p'))).put
          (.vault (v.withCounters v'))).put (.approval { a with consumed := used }))
  | prepareKey {now : I64} {signers : List Pubkey} {subject : Pubkey} {bump : U8}
      (nonzero : subject ≠ Bytes32.zero) (state : V.policy.state ≠ CANCELLED)
      (vacant : V.record subject = none) :
      Step P V ⟨now, signers, .prepareKey subject⟩
        (V.put (.withdrawalKey {
          policy := P, subject, historyMask := 0, pendingMask := 0, recipient := false, bump }))
  | propose {now : I64} {signers : List Pubkey} {req : RotationRequest} {k : WithdrawalKeyV7}
      {executeAfter expiresAt : I64} {bump : U8} (guard : ProposeGuard V now signers req k)
      (after : now.val + 7776000 = executeAfter.val)
      (expiry : executeAfter.val + 2592000 = expiresAt.val) :
      Step P V ⟨now, signers, .propose req⟩
        (((V.put (.policy (V.policy.setRole now req.role { V.role req.role with
          pending := req.nonce, sequence := req.nonce }))).put
          (.withdrawal {
            policy := P
            role := req.role.toU8
            nonce := req.nonce
            epoch := req.epoch
            predecessor := (V.role req.role).current
            successor := req.successor
            recovery := req.recovery
            validFrom := req.validFrom
            validUntil := req.validUntil
            createdAt := now
            executeAfter
            expiresAt
            status := PROPOSAL_PENDING
            finishedAt := 0
            bump })).put
          (.withdrawalKey { k with pendingMask := k.pendingMask ||| req.role.bit }))
  | execute {now : I64} {signers : List Pubkey} {r : Role} {q : WithdrawalProposalV7}
      {k : WithdrawalKeyV7} {epoch : U64} (tick : V.policy.lastActionAt ≤ now)
      (state : V.policy.state ≠ CANCELLED) (pending : Pending V r q k)
      (window : q.executeAfter ≤ now ∧ now < q.expiresAt) (eligible : EligibleSuccessor V.policy r k)
      (next : (V.role r).epoch.val + 1 = epoch.val) :
      Step P V ⟨now, signers, .execute r q⟩
        (V.settle now r { V.role r with current := q.successor, epoch } q
          { k with historyMask := k.historyMask ||| r.bit } PROPOSAL_EXECUTED)
  | cancelRotation {now : I64} {signers : List Pubkey} {r : Role} {q : WithdrawalProposalV7}
      {k : WithdrawalKeyV7} {initiator cosigner : Pubkey} (tick : V.policy.lastActionAt ≤ now)
      (pending : Pending V r q k)
      (authority : TwoOf (V.policy.config.committee r) initiator cosigner ∨
        (initiator = cosigner ∧ (initiator = q.successor ∨
          (¬ q.recovery ∧ initiator = (V.role r).current))))
      (signed : initiator ∈ signers ∧ cosigner ∈ signers) :
      Step P V ⟨now, signers, .cancelRotation r q initiator cosigner⟩
        (V.settle now r (V.role r) q k PROPOSAL_CANCELLED)
  | expire {now : I64} {signers : List Pubkey} {r : Role} {q : WithdrawalProposalV7}
      {k : WithdrawalKeyV7} (tick : V.policy.lastActionAt ≤ now) (pending : Pending V r q k)
      (expired : q.expiresAt ≤ now) :
      Step P V ⟨now, signers, .expire r q⟩ (V.settle now r (V.role r) q k PROPOSAL_EXPIRED)
  | proposeChange {now : I64} {signers : List Pubkey} {req : ChangeRequest} {executeAfter : I64}
      {bump : U8} (guard : ProposeChangeGuard V now signers req executeAfter) :
      Step P V ⟨now, signers, .proposeChange req⟩
        ((V.put (.policy { V.policy with
          lastActionAt := now, changeSequence := req.nonce, pendingChange := req.nonce })).put
          (.change {
            policy := P
            nonce := req.nonce
            kind := req.kind
            recovery := req.recovery
            successor := req.successor
            controllerEpoch := V.policy.controllerEpoch
            oracleEpoch := V.policy.oracleEpoch
            createdAt := now
            executeAfter
            status := PROPOSAL_PENDING
            bump }))
  | cancelChange {now : I64} {signers : List Pubkey} {q : ChangeProposalV7}
      {initiator cosigner : Pubkey} (tick : V.policy.lastActionAt ≤ now)
      (pending : PendingChange V q)
      (authority : TwoOf V.policy.config.recoveryKeys initiator cosigner ∨
        (initiator = cosigner ∧ (initiator = q.successor ∨
          (¬ q.recovery ∧ initiator = V.policy.controller))))
      (signed : initiator ∈ signers ∧ cosigner ∈ signers) :
      Step P V ⟨now, signers, .cancelChange q initiator cosigner⟩
        ((V.put (.policy { V.policy with lastActionAt := now, pendingChange := 0 })).put
          (.change { q with status := PROPOSAL_CANCELLED }))
  | changeOracle {now : I64} {signers : List Pubkey} {q : ChangeProposalV7} {epoch : U64}
      (tick : V.policy.lastActionAt ≤ now) (pending : PendingChange V q)
      (notice : q.executeAfter ≤ now) (kind : q.kind = CHANGE_ORACLE)
      (next : V.policy.oracleEpoch.val + 1 = epoch.val) :
      Step P V ⟨now, signers, .executeChange q⟩
        ((V.put (.policy { V.policy with
          lastActionAt := now
          oracle := q.successor
          oracleEpoch := epoch
          oracleActivatedAt := now
          reportValid := false
          pendingChange := 0 })).put (.change { q with status := PROPOSAL_EXECUTED }))
  | changeController {now : I64} {signers : List Pubkey} {q : ChangeProposalV7} {epoch : U64}
      (tick : V.policy.lastActionAt ≤ now) (pending : PendingChange V q)
      (notice : q.executeAfter ≤ now) (kind : q.kind = CHANGE_CONTROLLER)
      (next : V.policy.controllerEpoch.val + 1 = epoch.val) :
      Step P V ⟨now, signers, .executeChange q⟩
        ((V.put (.policy { V.policy with
          lastActionAt := now
          controller := q.successor
          controllerEpoch := epoch
          pendingChange := 0 })).put (.change { q with status := PROPOSAL_EXECUTED }))

/-- The machine of the policy at `P`. -/
def machine (chain : Chain) (P : Pubkey) : Machine View Event where
  opens := Opened chain
  step := Step P

end FundingVaults.LaunchV7
