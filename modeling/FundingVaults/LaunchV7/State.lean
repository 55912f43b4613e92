import FundingVaults.Lib.Solana

/-!
# Accounts, constants and errors of the launch vault

Transcription of `state.rs`.  Field order is the source's, which the byte layouts depend on.
The two-element arrays that the source indexes by role are `PerRole` records, and the stored
`role` bytes stay bytes: `Role.ofU8` is the bounds check of `get(usize::from(role))`.
-/

namespace FundingVaults.LaunchV7

/-! ## Constants -/

def PERIOD : I64 := ⟨30 * 86400, by decide, by decide⟩
def CLIFF : I64 := ⟨180 * 86400, by decide, by decide⟩
def PREPARED : U8 := 0
def ARMED : U8 := 1
def ACTIVE : U8 := 2
def CANCELLED : U8 := 3
def FOUNDER : U8 := 0
def TREASURY : U8 := 1
def RATE_DIVISOR : U64 := 12
def MAX_RELEASE_BPS : U16 := 500
def CHANGE_NOTICE : I64 := ⟨90 * 86400, by decide, by decide⟩
def CHANGE_ORACLE : U8 := 0
def CHANGE_CONTROLLER : U8 := 1
def PROPOSAL_PENDING : U8 := 0
def PROPOSAL_EXECUTED : U8 := 1
def PROPOSAL_CANCELLED : U8 := 2
def PROPOSAL_EXPIRED : U8 := 3
def MAX_SUBMISSION_WINDOW : I64 := ⟨300, by decide, by decide⟩
def WITHDRAWAL_EXECUTION_WINDOW : I64 := ⟨30 * 86400, by decide, by decide⟩

@[simp] theorem PERIOD_val : PERIOD.val = 2592000 := rfl
@[simp] theorem CLIFF_val : CLIFF.val = 15552000 := rfl
@[simp] theorem CHANGE_NOTICE_val : CHANGE_NOTICE.val = 7776000 := rfl
@[simp] theorem MAX_SUBMISSION_WINDOW_val : MAX_SUBMISSION_WINDOW.val = 300 := rfl
@[simp] theorem WITHDRAWAL_EXECUTION_WINDOW_val :
    WITHDRAWAL_EXECUTION_WINDOW.val = 2592000 := rfl

/-! ## Roles -/

inductive Role where
  | founder
  | treasury
deriving DecidableEq, Repr

namespace Role

def toU8 : Role → U8
  | founder => FOUNDER
  | treasury => TREASURY

/-- The role a stored byte names, `none` out of bounds. -/
def ofU8 (b : U8) : Option Role :=
  if b = FOUNDER then some founder else if b = TREASURY then some treasury else none

/-- The bit of a role in the byte masks. -/
def bit (r : Role) : U8 := 1 <<< r.toU8

@[simp] theorem ofU8_toU8 (r : Role) : ofU8 r.toU8 = some r := by
  cases r <;> rfl

theorem ofU8_eq_some {b : U8} {r : Role} : ofU8 b = some r ↔ b = r.toU8 := by
  constructor
  · unfold ofU8
    intro h
    split at h
    · cases h
      assumption
    · split at h
      · cases h
        assumption
      · cases h
  · rintro rfl
    exact ofU8_toU8 r

theorem forall_role {P : Role → Prop} : (∀ r, P r) ↔ P founder ∧ P treasury :=
  ⟨fun h ↦ ⟨h _, h _⟩, fun h r ↦ by cases r; exacts [h.1, h.2]⟩

theorem one_shiftLeft_toU8 (r : Role) : (1 : U8) <<< r.toU8 = r.bit := rfl

@[simp] theorem toU8_inj {r s : Role} : r.toU8 = s.toU8 ↔ r = s := by
  cases r <;> cases s <;> decide

/-! ### Masks -/

/-- The byte that has the bits of the roles in `f`. -/
def mask (f : Role → Bool) : U8 :=
  (if f founder then founder.bit else 0) ||| (if f treasury then treasury.bit else 0)

variable {f g : Role → Bool} {r : Role}

theorem mask_congr (h : ∀ r, f r = g r) : mask f = mask g := by
  rw [funext h]

theorem mask_eq_zero : mask f = 0 ↔ ∀ r, f r = false := by
  rw [forall_role]
  unfold mask
  cases f founder <;> cases f treasury <;> decide

theorem mask_and_bit : mask f &&& r.bit = 0 ↔ f r = false := by
  unfold mask
  cases r <;> cases f founder <;> cases f treasury <;> decide

theorem mask_or_bit : mask f ||| r.bit = mask (Function.update f r true) := by
  unfold mask
  cases r <;> simp only [Function.update_apply] <;> cases f founder <;> cases f treasury <;> decide

theorem mask_and_not_bit : mask f &&& ~~~r.bit = mask (Function.update f r false) := by
  unfold mask
  cases r <;> simp only [Function.update_apply] <;> cases f founder <;> cases f treasury <;> decide

end Role

/-- A `[T; 2]` indexed by role. -/
@[ext]
structure PerRole (α : Type) where
  founder : α
  treasury : α
deriving DecidableEq, Repr

namespace PerRole

variable {α : Type}

def get (x : PerRole α) : Role → α
  | .founder => x.founder
  | .treasury => x.treasury

def set (x : PerRole α) (r : Role) (a : α) : PerRole α :=
  match r with
  | .founder => { x with founder := a }
  | .treasury => { x with treasury := a }

/-- `x[i] = f(x[i])` for a byte `i` already checked to be in bounds. -/
def modify (x : PerRole α) (i : U8) (f : α → α) : PerRole α :=
  match Role.ofU8 i with
  | some r => x.set r (f (x.get r))
  | none => x

@[simp] theorem get_mk_founder (a b : α) : get ⟨a, b⟩ .founder = a := rfl
@[simp] theorem get_mk_treasury (a b : α) : get ⟨a, b⟩ .treasury = b := rfl

theorem get_set (x : PerRole α) (r s : Role) (a : α) :
    (x.set r a).get s = if s = r then a else x.get s := by
  cases r <;> cases s <;> rfl

@[simp] theorem get_set_self (x : PerRole α) (r : Role) (a : α) : (x.set r a).get r = a := by
  cases r <;> rfl

@[simp] theorem modify_toU8 (x : PerRole α) (r : Role) (f : α → α) :
    x.modify r.toU8 f = x.set r (f (x.get r)) := by
  simp [modify]

theorem ext_get {x y : PerRole α} (h : ∀ r, x.get r = y.get r) : x = y :=
  PerRole.ext (h .founder) (h .treasury)

end PerRole

/-! ## Configuration -/

/-- Two frozen input epochs of an annual budget. -/
structure AnnualRule where
  startPeriod : U64
  endPeriod : U64
  founderBasis : U64
  treasuryBasis : U64
  sharedCap : U64
  releaseBps : U16
  sourceHash : Bytes32
deriving DecidableEq

/-- The frozen configuration; all amounts are mint base units. -/
structure LaunchConfig where
  t0 : I64
  founderAmount : U64
  treasuryAmount : U64
  founderPeriodCap : U64
  treasuryPeriodCap : U64
  sharedHardCap : U64
  maxReportAge : I64
  annualRules : Vector AnnualRule 2
  recoveryKeys : Vector Pubkey 3
  founderRecoveryKeys : Vector Pubkey 3
  treasuryRecoveryKeys : Vector Pubkey 3
deriving DecidableEq

/-! ## Accounts -/

/-- Immutable content-addressed intent. -/
structure LaunchPreparationV7 where
  creator : Pubkey
  mint : Pubkey
  founder : Pubkey
  treasury : Pubkey
  oracle : Pubkey
  identity : Bytes32
  specHash : Bytes32
  config : LaunchConfig
  bump : U8
deriving DecidableEq

structure WithdrawalRole where
  current : Pubkey
  epoch : U64
  sequence : U64
  pending : U64
deriving DecidableEq

structure LaunchPolicyV7 where
  creator : Pubkey
  mint : Pubkey
  founder : Pubkey
  treasury : Pubkey
  oracle : Pubkey
  identity : Bytes32
  specHash : Bytes32
  config : LaunchConfig
  state : U8
  fundedMask : U8
  bump : U8
  lastActionAt : I64
  period : U64
  sharedUsed : U64
  reportPeriod : U64
  reportCapacity : U64
  reportAt : I64
  reportSequence : U64
  founderPeriodUsed : U64
  treasuryPeriodUsed : U64
  founderReleasedTotal : U64
  treasuryReleasedTotal : U64
  annualIndex : U8
  founderAnnualUsed : U64
  treasuryAnnualUsed : U64
  -- The initial actors stay identity inputs; current control is separate.
  initialOracle : Pubkey
  controller : Pubkey
  controllerEpoch : U64
  oracleEpoch : U64
  oracleActivatedAt : I64
  reportEpoch : U64
  reportValid : Bool
  changeSequence : U64
  pendingChange : U64
  withdrawal : PerRole WithdrawalRole
  approvalCount : U64
deriving DecidableEq

structure WithdrawalProposalV7 where
  policy : Pubkey
  role : U8
  nonce : U64
  epoch : U64
  predecessor : Pubkey
  successor : Pubkey
  recovery : Bool
  validFrom : I64
  validUntil : I64
  createdAt : I64
  executeAfter : I64
  expiresAt : I64
  status : U8
  finishedAt : I64
  bump : U8
deriving DecidableEq

/-- Permanent key index of one policy and one subject key. -/
structure WithdrawalKeyV7 where
  policy : Pubkey
  subject : Pubkey
  historyMask : U8
  pendingMask : U8
  recipient : Bool
  bump : U8
deriving DecidableEq

structure LaunchVaultV7 where
  policy : Pubkey
  depositor : Pubkey
  authority : Pubkey
  role : U8
  bump : U8
  principal : U64
  releasedTotal : U64
  period : U64
  periodUsed : U64
deriving DecidableEq

structure TreasuryApprovalV7 where
  policy : Pubkey
  period : U64
  recipient : Pubkey
  recipientOwner : Pubkey
  need : U64
  consumed : U64
  createdAt : I64
  bump : U8
  author : Pubkey
  authorEpoch : U64
deriving DecidableEq

structure ChangeProposalV7 where
  policy : Pubkey
  nonce : U64
  kind : U8
  recovery : Bool
  successor : Pubkey
  controllerEpoch : U64
  oracleEpoch : U64
  createdAt : I64
  executeAfter : I64
  status : U8
  bump : U8
deriving DecidableEq

/-! ## Errors -/

inductive LaunchError where
  | ExperimentalProfileDisabled
  | InvalidConfig
  | IdentityMismatch
  | InvalidState
  | T0Boundary
  | PoolsNotFunded
  | Unauthorized
  | MintAuthorityLive
  | WrongPrincipal
  | ClockRollback
  | CliffActive
  | InvalidReport
  | CapacityExceeded
  | InvalidApproval
  | Overflow
  | ZeroAmount
  | InvalidAnnualRule
  | InvalidAccounting
  | CapacityCorrectionPause
  | ReservedQuotaExceeded
  | InvalidChange
  | ChangeNotice
  | RecoveryQuorum
  | WithdrawalPaused
  | WithdrawalAuthority
  | KnownSelfPayment
  | IneligibleSuccessor
  | SubmissionWindow
  | WithdrawalWindow
deriving DecidableEq, Repr

/-- What the account constraints of the framework reject. -/
inductive ConstraintError where
  | AccountNotSigner
  | AccountNotInitialized
  | AccountAlreadyInUse
  | ConstraintSeeds
  | ConstraintHasOne
  | ConstraintTokenMint
  | ConstraintTokenOwner
deriving DecidableEq, Repr

inductive ProgramError where
  | launch (e : LaunchError)
  | constraint (e : ConstraintError)
  /-- The token program rejected a transfer. -/
  | token
deriving DecidableEq, Repr

instance : Coe LaunchError ProgramError := ⟨.launch⟩
instance : Coe ConstraintError ProgramError := ⟨.constraint⟩

abbrev Result := Except ProgramError

/-! ## Time -/

def periodAt (t0 now : I64) : Result U64 := do
  require (now ≥ t0) LaunchError.T0Boundary
  let elapsed ← okOr (now.checkedSub t0) LaunchError.Overflow
  pure (U64.ofInt (elapsed.val / PERIOD.val))

def periodStart (t0 : I64) (period : U64) : Result I64 :=
  okOr (I64.ofInt? (t0.val + period.val * PERIOD.val)) LaunchError.Overflow

/-- Period `k` at `now` is the floor of the elapsed time over the period length. -/
theorem periodAt_eq_ok {t0 now : I64} {k : U64} :
    periodAt t0 now = .ok k ↔
      t0.val ≤ now.val ∧ now.val - t0.val < 2 ^ 63 ∧ (k.val : ℤ) = (now.val - t0.val) / 2592000 := by
  simp only [periodAt, bind_eq_ok, require_eq_ok, okOr_eq_ok, pure_eq_ok, PERIOD_val,
    I64.checkedSub_eq_some, I64.le_iff, ge_iff_le, exists_const]
  constructor
  · rintro ⟨hle, e, he, rfl⟩
    have := e.lt
    have hk := U64.ofInt_val (x := e.val / 2592000) (by omega) (by omega)
    exact ⟨hle, by omega, by rw [hk, he]⟩
  · rintro ⟨hle, hlt, hk⟩
    refine ⟨hle, ⟨now.val - t0.val, by omega, hlt⟩, rfl, ?_⟩
    have hv := U64.ofInt_val (x := (now.val - t0.val) / 2592000) (by omega) (by omega)
    exact Fin.ext (by rw [← hk] at hv ⊢; exact_mod_cast hv)

theorem periodStart_eq_ok {t0 : I64} {k : U64} {s : I64} :
    periodStart t0 k = .ok s ↔ t0.val + k.val * 2592000 = s.val := by
  simp [periodStart, I64.ofInt?_eq_some]

/-! ## Policy methods -/

namespace LaunchPolicyV7

variable (p : LaunchPolicyV7)

def withdrawalFor (role : U8) : Result WithdrawalRole :=
  okOr ((Role.ofU8 role).map p.withdrawal.get) LaunchError.InvalidConfig

def authenticateWithdrawal (role : U8) (signer : Pubkey) (epoch : U64) : Result Unit := do
  let r ← p.withdrawalFor role
  require (r.pending = 0) LaunchError.WithdrawalPaused
  require (r.current = signer ∧ r.epoch = epoch) LaunchError.WithdrawalAuthority

def withdrawalKeys (role : U8) : Result (Vector Pubkey 3) :=
  if role = FOUNDER then .ok p.config.founderRecoveryKeys
  else if role = TREASURY then .ok p.config.treasuryRecoveryKeys
  else .error LaunchError.InvalidConfig

def tick (now : I64) : Result LaunchPolicyV7 := do
  require (now ≥ p.lastActionAt) LaunchError.ClockRollback
  pure { p with lastActionAt := now }

def ownerFor (role : U8) : Result Pubkey :=
  if role = FOUNDER then .ok p.founder
  else if role = TREASURY then .ok p.treasury
  else .error LaunchError.InvalidConfig

def principalFor (role : U8) : Result U64 :=
  if role = FOUNDER then .ok p.config.founderAmount
  else if role = TREASURY then .ok p.config.treasuryAmount
  else .error LaunchError.InvalidConfig

end LaunchPolicyV7

/-! ## The fields of a role

The source names the two roles' fields separately; these read them by role. -/

namespace AnnualRule

def basis (r : AnnualRule) : Role → U64
  | .founder => r.founderBasis
  | .treasury => r.treasuryBasis

end AnnualRule

namespace LaunchConfig

variable (c : LaunchConfig)

def principal : Role → U64
  | .founder => c.founderAmount
  | .treasury => c.treasuryAmount

def periodCap : Role → U64
  | .founder => c.founderPeriodCap
  | .treasury => c.treasuryPeriodCap

def rule (i : Fin 2) : AnnualRule := c.annualRules.get i

/-- The recovery committee of a role. -/
def committee : Role → Vector Pubkey 3
  | .founder => c.founderRecoveryKeys
  | .treasury => c.treasuryRecoveryKeys

end LaunchConfig

namespace LaunchPolicyV7

variable (p : LaunchPolicyV7)

/-- The initial key of a role. -/
def owner : Role → Pubkey
  | .founder => p.founder
  | .treasury => p.treasury

def periodUsed : Role → U64
  | .founder => p.founderPeriodUsed
  | .treasury => p.treasuryPeriodUsed

def annualUsed : Role → U64
  | .founder => p.founderAnnualUsed
  | .treasury => p.treasuryAnnualUsed

def releasedTotal : Role → U64
  | .founder => p.founderReleasedTotal
  | .treasury => p.treasuryReleasedTotal

variable {p}

theorem withdrawalFor_eq_ok {b : U8} {w : WithdrawalRole} :
    p.withdrawalFor b = .ok w ↔ ∃ r : Role, b = r.toU8 ∧ p.withdrawal.get r = w := by
  simp [withdrawalFor, Role.ofU8_eq_some]

@[simp] theorem withdrawalFor_toU8 (r : Role) :
    p.withdrawalFor r.toU8 = .ok (p.withdrawal.get r) := by
  simp [withdrawalFor, okOr]

@[simp] theorem withdrawalKeys_toU8 (r : Role) :
    p.withdrawalKeys r.toU8 = .ok (p.config.committee r) := by
  cases r <;> rfl

@[simp] theorem ownerFor_toU8 (r : Role) : p.ownerFor r.toU8 = .ok (p.owner r) := by
  cases r <;> rfl

@[simp] theorem principalFor_toU8 (r : Role) :
    p.principalFor r.toU8 = .ok (p.config.principal r) := by
  cases r <;> rfl

theorem authenticateWithdrawal_eq_ok {b : U8} {signer : Pubkey} {epoch : U64} {u : Unit} :
    p.authenticateWithdrawal b signer epoch = .ok u ↔
      ∃ r : Role, b = r.toU8 ∧ (p.withdrawal.get r).pending = 0 ∧
        (p.withdrawal.get r).current = signer ∧ (p.withdrawal.get r).epoch = epoch := by
  simp [authenticateWithdrawal, withdrawalFor_eq_ok]

@[simp] theorem tick_eq_ok {now : I64} {p' : LaunchPolicyV7} :
    p.tick now = .ok p' ↔ p.lastActionAt ≤ now ∧ { p with lastActionAt := now } = p' := by
  simp [tick]

end LaunchPolicyV7

end FundingVaults.LaunchV7
