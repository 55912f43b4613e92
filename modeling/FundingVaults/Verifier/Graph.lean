import FundingVaults.Verifier.Projection

/-!
# The verifier of launch graphs

Transcription of `verify` of `launch_v7_verifier.py` and of the functions it calls.  The history of
the policy is rebuilt from its change proposals, its withdrawal proposals and its approvals: who
held which key, at which epoch, and when.  Each loop is a fold over its variables.
-/

namespace FundingVaults.Verifier

open LaunchV7 (PerRole)

variable (chain : Chain) (s : Snapshot)

/-! ## Governance -/

structure PendingChange where
  nonce : ℤ
  kind : String
  recovery : Bool
  successor : String
  executeAfter : ℤ
  mature : Bool

structure Governance where
  controller : String
  oracle : String
  controllerEpoch : ℤ
  oracleEpoch : ℤ
  reportValid : Bool
  reportEpoch : ℤ
  recoveryKeys : List String
  requiredRecoverySignatures : ℤ := 2
  changeSequence : ℤ
  pending : Option PendingChange
  founderWithdrawalKey : String
  treasuryWithdrawalKey : String
  withdrawalKeyRecoverySupported : Bool := true
  humanIndependenceVerified : Bool := false

/-- The entry of a kind of change: zero is the oracle, one the controller. -/
def pick {α : Type} (kind : ℤ) (x : α × α) : α := if kind = 0 then x.1 else x.2

/-- The pair with a new entry for a kind. -/
def place {α : Type} (kind : ℤ) (a : α) (x : α × α) : α × α :=
  if kind = 0 then (a, x.2) else (x.1, a)

/-- The variables of the loop over the changes. -/
structure ChangeLoop where
  current : String × String
  epochs : ℤ × ℤ := (0, 0)
  pending : Option PendingChange := none
  earliestNextCreation : ℤ := -(2 ^ 63)
  latestOracleMaturity : Option ℤ := none

/-- A change is executed, pending or cancelled. -/
def ChangeLoop.turn (p : PolicyView) (now : ℤ) (l : ChangeLoop) (nonce : ℤ) (q : Change) :
    Except String ChangeLoop := do
  require (q.oracleEpoch = l.epochs.1 ∧ q.controllerEpoch = l.epochs.2) "CHANGE_EPOCH_HISTORY"
  let successor ← pubkey q.successor
  require (successor ≠ ZEROS ∧ q.successor ≠ pick q.kind l.current) "CHANGE_SUCCESSOR"
  require (l.earliestNextCreation ≤ q.createdAt ∧ q.createdAt ≤ p.lastActionAt ∧
    p.lastActionAt ≤ now ∧ q.executeAfter = q.createdAt + NOTICE) "CHANGE_NOTICE_TIME"
  if q.status = 1 then do
    require (q.executeAfter ≤ p.lastActionAt) "EXECUTED_BEFORE_NOTICE"
    pure { l with
      current := place q.kind q.successor l.current
      epochs := place q.kind (pick q.kind l.epochs + 1) l.epochs
      earliestNextCreation := q.executeAfter
      latestOracleMaturity :=
        if q.kind = 0 then some q.executeAfter else l.latestOracleMaturity }
  else if q.status = 0 then do
    require (nonce = p.changeSequence ∧ p.pendingChange = nonce) "PENDING_CHANGE_LINK"
    pure { l with
      earliestNextCreation := q.createdAt
      pending := some {
        nonce
        kind := if q.kind = 0 then "oracle" else "controller"
        recovery := q.recovery ≠ 0
        successor := q.successor
        executeAfter := q.executeAfter
        mature := q.executeAfter ≤ now } }
  else pure { l with earliestNextCreation := q.createdAt }

/-- One turn of the loop of `verify_governance`. -/
def changeTurn (p : PolicyView) (now : ℤ) (l : ChangeLoop) (nonce : ℤ) :
    Except String ChangeLoop := do
  let (address, q) ← s.record ("change_" ++ toString nonce) (readChange chain)
  let policy ← pubkey p.address
  let (expected, bump) ← derived chain [ascii "launch-v7-change", policy, pack .Q nonce]
  require (address = expected ∧ q.bump = bump ∧ q.policy = p.address ∧ q.nonce = nonce)
    "CHANGE_PDA_BINDING"
  require ((q.kind = 0 ∨ q.kind = 1) ∧ (q.recovery = 0 ∨ q.recovery = 1) ∧
    (q.status = 0 ∨ q.status = 1 ∨ q.status = 2)) "CHANGE_ENUM"
  l.turn p now nonce q

def verifyGovernance (p : PolicyView) (now : ℤ) : Except String Governance := do
  let keys := p.config.recoveryKeys
  let valid ← registered keys
  require valid "RECOVERY_KEYS"
  require (p.oracleActivatedAt ≤ p.lastActionAt) "ORACLE_ACTIVATION"
  require (p.reportEpoch ≤ p.oracleEpoch) "REPORT_EPOCH"
  if p.reportValid then
    require (0 < p.reportSequence ∧ p.reportEpoch = p.oracleEpoch ∧
      p.oracleActivatedAt ≤ p.reportAt) "REPORT_GENERATION"
  else if p.reportSequence ≠ 0 then
    require (p.reportEpoch < p.oracleEpoch) "INVALIDATED_REPORT_EPOCH"
  else require (p.reportEpoch = 0) "EMPTY_REPORT_EPOCH"
  let n := p.changeSequence
  require (n ≤ 256) "CHANGE_HISTORY_LIMIT"
  require (sameNames (s.named "change_") ((upTo n).map fun i ↦ "change_" ++ toString i))
    "COMPLETE_CHANGE_HISTORY_REQUIRED"
  let l ← (upTo n).foldlM (changeTurn chain s p now) { current := (p.initialOracle, p.creator) }
  require (p.pendingChange = if l.pending.isSome then n else 0) "PENDING_CHANGE_LINK"
  require (l.current = (p.oracle, p.controller) ∧ l.epochs = (p.oracleEpoch, p.controllerEpoch))
    "CURRENT_KEYS_OR_EPOCHS"
  match l.latestOracleMaturity with
  | some maturity => require (maturity ≤ p.oracleActivatedAt) "ORACLE_ACTIVATION_NOTICE"
  | none => require (p.oracleActivatedAt < p.config.t0) "INITIAL_ORACLE_ACTIVATION"
  let founder ← p.role .founder
  let treasury ← p.role .treasury
  pure {
    controller := p.controller
    oracle := p.oracle
    controllerEpoch := p.controllerEpoch
    oracleEpoch := p.oracleEpoch
    reportValid := p.reportValid
    reportEpoch := p.reportEpoch
    recoveryKeys := keys
    changeSequence := n
    pending := l.pending
    founderWithdrawalKey := founder.current
    treasuryWithdrawalKey := treasury.current }

/-! ## Approvals -/

/-- One turn of the loop of `read_approvals`. -/
def approvalTurn (p : PolicyView) (now : ℤ) (name : String) : Except String Approval := do
  let (address, a) ← s.record name (readApproval chain)
  let policy ← pubkey p.address
  let (expected, bump) ← derived chain [ascii "launch-v7-approval", policy, pack .Q a.period]
  require (name = "approval_" ++ toString a.period ∧ address = expected ∧ a.bump = bump ∧
    a.policy = p.address) "APPROVAL_PDA"
  require (0 < a.need ∧ a.consumed ≤ a.need ∧ a.createdAt ≤ p.lastActionAt ∧
    p.lastActionAt ≤ now) "APPROVAL_COUNTERS"
  require (a.createdAt < p.config.t0 + a.period * PERIOD) "APPROVAL_TARGET_PERIOD"
  pure a

def readApprovals (p : PolicyView) (now : ℤ) : Except String (List Approval) := do
  let names := (s.named "approval_").insertionSort (· ≤ ·)
  require ((names.length : ℤ) = p.approvalCount ∧ p.approvalCount ≤ 64)
    "COMPLETE_APPROVAL_HISTORY"
  names.mapM (approvalTurn chain s p now)

/-! ## Withdrawals -/

/-- What the loop over the proposals keeps about all roles. -/
structure WithdrawalLoop where
  needed : List String
  /-- The history mask and the pending mask that a key should have. -/
  masks : String → ℕ × ℕ := fun _ ↦ (0, 0)
  proposals : List Withdrawal := []
  names : List String := []

/-- What it keeps about the role it is at. -/
structure RoleLoop where
  current : String
  epoch : ℤ := 0
  earliest : ℤ := -(2 ^ 63)
  history : List String
  activations : List (Option ℤ) := [none]
  pendingNonce : ℤ := 0

/-- When the key of an epoch was taken on. -/
def RoleLoop.activation (l : RoleLoop) (e : ℕ) : Option ℤ := (l.activations[e]?).join

/-- A proposal is pending, executed, cancelled or expired. -/
def RoleLoop.turn (p : PolicyView) (now sequence : ℤ) (bit : ℕ) (committee : List String)
    (masks : ℕ × ℕ) (l : RoleLoop) (nonce : ℤ) (q : Withdrawal) :
    Except String (RoleLoop × ℕ × ℕ) := do
  require (q.epoch = l.epoch ∧ q.predecessor = l.current) "WITHDRAWAL_EPOCH_HISTORY"
  let successor ← pubkey q.successor
  require (successor ≠ ZEROS ∧ q.successor ∉ l.history ∧ q.successor ∉ committee)
    "WITHDRAWAL_SUCCESSOR"
  require (0 ≤ q.validFrom ∧ q.validFrom ≤ q.createdAt ∧ q.createdAt ≤ q.validUntil ∧
    0 ≤ q.validUntil - q.validFrom ∧ q.validUntil - q.validFrom ≤ 300 ∧
    q.validUntil + NOTICE + PERIOD < 2 ^ 63) "WITHDRAWAL_ADMISSION"
  require (l.earliest ≤ q.createdAt ∧ q.createdAt ≤ p.lastActionAt ∧ p.lastActionAt ≤ now ∧
    q.executeAfter = q.createdAt + NOTICE ∧ q.expiresAt = q.executeAfter + PERIOD ∧
    q.executeAfter + PERIOD < 2 ^ 63) "WITHDRAWAL_NOTICE"
  if q.status = 0 then do
    require (nonce = sequence ∧ q.finishedAt = 0) "WITHDRAWAL_PENDING"
    pure ({ l with pendingNonce := nonce }, masks.1, masks.2 ||| bit)
  else do
    require (q.createdAt ≤ q.finishedAt ∧ q.finishedAt ≤ p.lastActionAt) "WITHDRAWAL_FINISH_TIME"
    let l := { l with earliest := q.finishedAt }
    if q.status = 1 then do
      require (q.executeAfter ≤ q.finishedAt ∧ q.finishedAt < q.expiresAt)
        "WITHDRAWAL_EXECUTION_WINDOW"
      pure ({ l with
        current := q.successor
        epoch := l.epoch + 1
        history := l.history ++ [q.successor]
        activations := l.activations ++ [some q.finishedAt] }, masks.1 ||| bit, masks.2)
    else if q.status = 3 then do
      require (q.expiresAt ≤ q.finishedAt) "WITHDRAWAL_EXPIRY"
      pure (l, masks)
    else pure (l, masks)

/-- One turn of the inner loop of `verify_withdrawal`. -/
def withdrawalTurn (p : PolicyView) (now : ℤ) (r : LaunchV7.Role) (sequence : ℤ)
    (x : WithdrawalLoop × RoleLoop) (nonce : ℤ) : Except String (WithdrawalLoop × RoleLoop) := do
  let (g, l) := x
  let name := "withdrawal_" ++ toString r.toU8.toNat ++ "_" ++ toString nonce
  let (address, q) ← s.record name (readWithdrawal chain)
  let policy ← pubkey p.address
  let (expected, bump) ←
    derived chain [ascii "launch-v7-withdraw", policy, [r.toU8], pack .Q nonce]
  require (address = expected ∧ q.bump = bump ∧ q.policy = p.address ∧ q.role = r.toU8.toNat ∧
    q.nonce = nonce) "WITHDRAWAL_PDA"
  require ((q.recovery = 0 ∨ q.recovery = 1) ∧
    (q.status = 0 ∨ q.status = 1 ∨ q.status = 2 ∨ q.status = 3)) "WITHDRAWAL_ENUM"
  let (l, masks) ← l.turn p now sequence (1 <<< r.toU8.toNat) (p.config.committee.get r)
    (g.masks q.successor) nonce q
  pure ({
    needed := g.needed ++ [q.successor]
    masks := Function.update g.masks q.successor masks
    proposals := g.proposals ++ [q]
    names := g.names ++ [name] }, l)

/-- One turn of the outer loop. -/
def roleTurn (p : PolicyView) (now : ℤ) (g : WithdrawalLoop) (r : LaunchV7.Role) :
    Except String (WithdrawalLoop × RoleLoop) := do
  let state ← p.role r
  require (state.sequence ≤ 256) "WITHDRAWAL_HISTORY_LIMIT"
  let original := p.original.get r
  let (g, l) ← (upTo state.sequence).foldlM (withdrawalTurn chain s p now r state.sequence)
    (g, { current := original, history := [original] })
  require (state.current = l.current ∧ state.epoch = l.epoch ∧ state.pending = l.pendingNonce)
    "WITHDRAWAL_CURRENT_STATE"
  pure (g, l)

/-- One turn of the loop over the key records. -/
def keyTurn (p : PolicyView) (approvals : List Approval) (masks : String → ℕ × ℕ)
    (records : List KeyRecord) (name : String) : Except String (List KeyRecord) := do
  let (address, k) ← s.record name (readKey chain)
  let policy ← pubkey p.address
  let subject ← pubkey k.subject
  let (expected, bump) ← derived chain [ascii "launch-v7-key", policy, subject]
  require (name = "key_" ++ k.subject ∧ address = expected ∧ k.bump = bump ∧
    k.policy = p.address) "KEY_INDEX_PDA"
  require ((k.recipient = 0 ∨ k.recipient = 1) ∧ k.subject ∉ records.map KeyRecord.subject)
    "KEY_INDEX_ENUM_OR_ALIAS"
  require (k.historyMask = (masks k.subject).1 ∧ k.pendingMask = (masks k.subject).2)
    "KEY_HISTORY_MASK"
  require (k.recipient ≠ 0 ↔ ∃ a ∈ approvals, a.recipientOwner = k.subject)
    "KEY_RECIPIENT_HISTORY"
  pure (records ++ [k])

/-- The checks of an approval against the rebuilt history of the treasury. -/
def checkApproval (p : PolicyView) (now : ℤ) (l : RoleLoop) (proposals : List Withdrawal)
    (records : List KeyRecord) (a : Approval) : Except String Unit := do
  let k ← okOr (records.find? fun k ↦ k.subject = a.recipientOwner) "KeyError"
  require (a.recipientOwner ∉ [p.founder, p.treasury] ++ p.config.founderRecoveryKeys ++
    p.config.treasuryRecoveryKeys ∧ k.historyMask = 0 ∧ k.pendingMask = 0) "KNOWN_SELF_PAYMENT"
  let e := a.authorEpoch.toNat
  require (l.history[e]? = some a.author) "APPROVAL_AUTHOR_EPOCH"
  require (a.authorEpoch = 0 ∨ (l.activation e).all (· ≤ a.createdAt)) "APPROVAL_AUTHOR_TIME"
  require (a.authorEpoch + 1 = l.history.length ∨ (l.activation (e + 1)).all (a.createdAt ≤ ·))
    "RETIRED_APPROVAL_AUTHOR"
  proposals.forM fun q ↦ do
    require (q.successor = a.recipientOwner →
      (q.status = 2 ∨ q.status = 3) ∧ q.finishedAt ≤ a.createdAt) "RECIPIENT_SUCCESSOR_COLLISION"
    require (q.role = 1 → ¬ (q.createdAt < a.createdAt ∧
      a.createdAt < if q.status = 0 then now + 1 else q.finishedAt)) "APPROVAL_DURING_PAUSE"

structure Terminal where
  current : String
  epoch : ℤ
  sequence : ℤ
  paused : Bool

structure WithdrawalView where
  roles : PerRole Terminal
  history : PerRole (List String)
  proposalsVerified : ℕ
  keyIndexesVerified : ℕ
  approvalsVerified : ℕ
  relatedPartyHumanIdentityVerified : Bool := false

/-- The registration of the withdrawal keys of a role. -/
def checkRegistration (p : PolicyView) (r : LaunchV7.Role) : Except String Unit := do
  let valid ← registered (p.config.committee.get r)
  require (valid ∧ p.original.get r ∉ p.config.committee.get r) "WITHDRAWAL_REGISTRATION"

def RoleLoop.terminal (l : RoleLoop) (sequence : ℤ) : Terminal where
  current := l.current
  epoch := l.epoch
  sequence
  paused := l.pendingNonce ≠ 0

def verifyWithdrawal (p : PolicyView) (approvals : List Approval) (now : ℤ) :
    Except String WithdrawalView := do
  checkRegistration p .founder
  checkRegistration p .treasury
  let (g, founder) ← roleTurn chain s p now
    { needed := approvals.map Approval.recipientOwner } .founder
  let (g, treasury) ← roleTurn chain s p now g .treasury
  let founderState ← p.role .founder
  let treasuryState ← p.role .treasury
  require (sameNames (s.named "withdrawal_") g.names) "COMPLETE_WITHDRAWAL_HISTORY"
  let records ← (s.named "key_").foldlM (keyTurn chain s p approvals g.masks) []
  require (g.needed ⊆ records.map KeyRecord.subject) "REQUIRED_KEY_INDEX_MISSING"
  approvals.forM (checkApproval p now treasury g.proposals records)
  pure {
    roles := ⟨founder.terminal founderState.sequence, treasury.terminal treasuryState.sequence⟩
    history := ⟨founder.history, treasury.history⟩
    proposalsVerified := g.proposals.length
    keyIndexesVerified := records.length
    approvalsVerified := approvals.length }

/-! ## Graphs -/

def SNAPSHOT_SCHEMA : String := "K4V-LAUNCH-V7-RAW-SNAPSHOT-v1"

/-- What an accepted graph is reported as. -/
structure Verification where
  valid : Bool := true
  scope : String := "SUPPLIED_ACTIVE_DUAL_POOL_GRAPH_ONLY"
  onChainAuthenticityVerified : Bool := false
  independentHumanAudit : Bool := false
  programId : String := PROGRAM
  programBytesVerified : Bool := false
  governance : Governance
  withdrawal : WithdrawalView
  decimals : ℤ
  conservedSupply : ℤ
  surplus : PerRole ℤ
  limits : Projection
  treasuryNoticeOk : Bool
  /-- `amount_ceilings_before_transaction_signatures`. -/
  amountCeilings : PerRole ℤ

def roleName : LaunchV7.Role → String
  | .founder => "founder"
  | .treasury => "treasury"

/-- The checks of the vault of a role, its surplus being returned. -/
def checkVault (p : PolicyView) (annual : PerRole ℤ) (source : Token) (t : Token)
    (r : LaunchV7.Role) : Except String ℤ := do
  let c := p.config
  let (address, v) ← s.record (roleName r ++ "_vault") (readVault chain)
  let policy ← pubkey p.address
  let (expected, bump) ← derived chain [ascii "launch-v7-vault", policy, [r.toU8]]
  require (address = expected ∧ v.bump = bump ∧ v.role = r.toU8.toNat) "VAULT_PDA_OR_ROLE"
  require (v.policy = p.address ∧ v.authority = p.original.get r ∧ v.depositor = source.owner)
    "VAULT_BINDING"
  require (v.principal = c.amount.get r ∧ v.releasedTotal = p.releasedTotal.get r)
    "LIFETIME_ACCOUNTING"
  require (v.releasedTotal ≤ v.principal ∧ v.period ≤ p.period) "VAULT_COUNTERS"
  let used := if v.period = p.period then v.periodUsed else 0
  require (used = p.periodUsed.get r ∧ v.periodUsed ≤ v.releasedTotal) "PERIOD_ACCOUNTING"
  require (used ≤ min (c.periodCap.get r) (annual.get r / 12)) "PERIOD_CAP_EXCEEDED"
  require (used ≤ p.annualUsed.get r ∧
    p.annualUsed.get r ≤ min (annual.get r) v.releasedTotal) "ANNUAL_ACCOUNTING"
  require (r = .founder → v.releasedTotal ≠ 0 → 6 ≤ v.period) "FOUNDER_CLIFF"
  let vault ← pubkey address
  let (tokenAddress, _) ← derived chain [ascii "launch-v7-token", vault]
  require (t.address = tokenAddress ∧ t.owner = address) "TOKEN_VAULT_PDA"
  require (t.delegate = 0 ∧ t.delegatedAmount = 0 ∧ t.closeAuthority = 0) "TOKEN_VAULT_AUTHORITY"
  let excess := t.amount - (v.principal - v.releasedTotal)
  require (0 ≤ excess) "CUSTODY_DEFICIT"
  pure excess

/-- The checks of the report that the policy stores. -/
def checkReport (p : PolicyView) (now : ℤ) : Except String Unit := do
  let t0 := p.config.t0
  require (p.reportAt ≤ p.lastActionAt ∧ p.reportPeriod ≤ (now - t0) / PERIOD) "REPORT_TIME"
  if p.reportSequence ≠ 0 then
    let start := t0 + p.reportPeriod * PERIOD
    require (start ≤ p.reportAt ∧ p.reportAt < start + PERIOD) "REPORT_OBSERVATION_PERIOD"
  else
    require (p.reportAt = 0 ∧ p.reportPeriod = 0 ∧ p.reportCapacity = 0) "EMPTY_REPORT_STATE"

/-- What is left for each role, the approval of the current period being `current`. -/
def ceilings (p : PolicyView) (l : Projection) (current : Option Approval) (noticeOk : Bool) :
    Except String (PerRole ℤ) := do
  let founder ← p.role .founder
  let treasury ← p.role .treasury
  let needed := match current with
    | some a => if noticeOk then min l.available.treasury (a.need - a.consumed) else 0
    | none => 0
  pure ⟨if founder.pending ≠ 0 then 0 else l.available.founder,
    if treasury.pending ≠ 0 then 0 else needed⟩

def verify : Except String Verification := do
  require (s.schema = SNAPSHOT_SCHEMA ∧ s.programId = PROGRAM) "SCHEMA_OR_PROGRAM"
  require ((s.scope = "AUTHOR_RUN_LOCAL_LITESVM" ∨ s.scope = "SUPPLIED_RPC_RESPONSE") ∧
    s.privateKeysSerialized = false) "SCOPE"
  let now := s.now
  require (-(2 ^ 63) ≤ now ∧ now < 2 ^ 63) "CLOCK_RANGE"
  require (s.accounts.values.map AccountView.address).Nodup "ACCOUNT_ALIAS"
  let p ← s.readPolicy chain
  let c := p.config
  let governance ← verifyGovernance chain s p now
  require (p.state = 2 ∧ p.fundedMask = 3) "ONLY_ACTIVE_DUAL_POOL_GRAPH_SUPPORTED"
  let oracle ← pubkey p.oracle
  require (p.specHash ≠ ZEROS ∧ oracle ≠ ZEROS) "POLICY_INPUT"
  require (c.t0 ≤ p.lastActionAt ∧ p.lastActionAt ≤ now) "CLOCK_ROLLBACK"
  require (0 ≤ p.period ∧ p.period ≤ (now - c.t0) / PERIOD) "STORED_PERIOD"
  let (supply, decimals) ← s.readMint p.toPolicy
  validateConfig c supply
  require (p.annualIndex = 0 ∨ p.annualIndex = 1) "ANNUAL_INDEX"
  let rule ← okOr c.annualRules[p.annualIndex.toNat]? "list index out of range"
  require (rule.startPeriod ≤ p.period ∧ p.period < rule.endPeriod) "ANNUAL_INDEX_PERIOD"
  let annual ← pairOf (annualCaps rule)
  let founderNames := (s.named "founder_destination_").insertionSort (· ≤ ·)
  require (1 ≤ founderNames.length ∧ founderNames.length ≤ 8 ∧
    founderNames = (List.range founderNames.length).map founderDestination)
    "FOUNDER_DESTINATION_SET"
  let source ← s.readToken "source"
  let founderToken ← s.readToken "founder_token"
  let treasuryToken ← s.readToken "treasury_token"
  let destination ← s.readToken "treasury_destination"
  let founders ← founderNames.mapM s.readToken
  let tokens := source :: founderToken :: treasuryToken :: destination :: founders
  require (∀ t ∈ tokens, t.mint = p.mint) "TOKEN_MINT"
  let founderSurplus ← checkVault chain s p annual source founderToken .founder
  let treasurySurplus ← checkVault chain s p annual source treasuryToken .treasury
  require (p.sharedUsed = p.founderPeriodUsed + p.treasuryPeriodUsed) "SHARED_ACCOUNTING"
  require (p.sharedUsed ≤ c.sharedHardCap) "HARD_CAP_EXCEEDED"
  require (p.founderAnnualUsed + p.treasuryAnnualUsed ≤ rule.sharedCap)
    "ANNUAL_SHARED_ACCOUNTING"
  require ((tokens.map Token.amount).sum = supply) "TOKEN_CONSERVATION"
  let approvals ← readApprovals chain s p now
  let withdrawal ← verifyWithdrawal chain s p approvals now
  require (∀ t ∈ founders, t.amount = 0 ∨ t.owner ∈ withdrawal.history.founder)
    "FOUNDER_DESTINATION"
  require ((founders.map Token.amount).sum = p.founderReleasedTotal)
    "DECLARED_FOUNDER_RELEASE_GRAPH"
  require (∀ a ∈ approvals, a.recipient = destination.address ∧
    a.recipientOwner = destination.owner) "DECLARED_TREASURY_RECIPIENT_GRAPH"
  require ((approvals.map Approval.consumed).sum = p.treasuryReleasedTotal ∧
    p.treasuryReleasedTotal = destination.amount) "APPROVAL_LIFETIME"
  approvals.forM fun a ↦ do
    require (a.consumed ≠ 0 → a.createdAt + PERIOD ≤ now ∧ a.period ≤ p.period) "APPROVAL_NOTICE"
    require (a.period = p.period → a.consumed = p.treasuryPeriodUsed)
      "APPROVAL_PERIOD_ACCOUNTING"
  checkReport p now
  let limits ← projectedLimits p.toPolicy now
  let current := approvals.find? fun a ↦ a.period = limits.period
  let noticeOk := current.any fun a ↦ decide (a.createdAt + PERIOD ≤ now)
  let amountCeilings ← ceilings p limits current noticeOk
  pure {
    governance
    withdrawal
    decimals
    conservedSupply := supply
    surplus := ⟨founderSurplus, treasurySurplus⟩
    limits
    treasuryNoticeOk := noticeOk
    amountCeilings }

end FundingVaults.Verifier
