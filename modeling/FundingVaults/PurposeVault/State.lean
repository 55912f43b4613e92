import FundingVaults.Lib.Anchor
import FundingVaults.Lib.Codec
import FundingVaults.Lib.Schedule

/-!
# Accounts and policy of the purpose vault

Transcription of `constants.rs`, `error.rs`, `state.rs` and `policy.rs` of `purpose-vault`: the
four kinds of account, the seeds of their addresses, and the functions that say how much a release
may take.
-/

namespace FundingVaults.PurposeVault

open Anchor

/-! ## Constants and errors -/

/-- The address of the program. -/
def ID : Pubkey := ⟨[18, 150, 22, 198, 27, 178, 188, 77, 205, 36, 34, 230, 149, 29, 184, 177, 161,
  239, 198, 42, 227, 91, 9, 44, 218, 210, 116, 207, 72, 88, 191, 106], rfl⟩

def MAX_ANNUAL_RELEASE_BPS : U16 := 500
def MAX_MARKET_CAPACITY_BPS : U16 := 500
def MIN_CLIFF_SECONDS : ℤ := 730 * 24 * 60 * 60
def MIN_NOTICE_SECONDS : ℤ := 30 * 24 * 60 * 60
def MAX_INPUT_AGE_CEILING_SECONDS : ℤ := 7 * 24 * 60 * 60
def ORACLE_ROTATION_NOTICE_SECONDS : ℤ := 90 * 24 * 60 * 60
def MIN_SILENCE_GRACE_SECONDS : ℤ := 180 * 24 * 60 * 60
def MAX_SILENCE_GRACE_SECONDS : ℤ := 730 * 24 * 60 * 60

def POLICY_SEED : Bytes := ascii "purpose-policy"
def MARKET_SEED : Bytes := ascii "purpose-market"
def VAULT_SEED : Bytes := ascii "purpose-vault"
def TOKEN_VAULT_SEED : Bytes := ascii "purpose-token"
def APPROVAL_SEED : Bytes := ascii "purpose-approval"

inductive CovenantError where
  | ZeroAmount
  | InvalidAnnualReleaseRate
  | InvalidMarketCapacityRate
  | InvalidInputAge
  | CliffTooShort
  | PurposeCliffNotZero
  | ZeroPolicyHash
  | ArithmeticOverflow
  | ZeroMonthlyCap
  | CliffActive
  | PeriodCapExceeded
  | DepositExceeded
  | AggregateCapacityExceeded
  | StaleMarketInput
  | InvalidClock
  | WrongVaultKind
  | ApprovalVaultMismatch
  | ApprovalPeriodMismatch
  | ApprovalPeriodTooSoon
  | ApprovedNeedExceeded
  | NoticePeriodActive
  | ApproverIsPayee
  | WrongDestinationOwner
  | ApprovalDestinationMismatch
  | WrongPolicyAuthority
  | ZeroHardCeiling
  | InvalidSilenceGrace
  | ZeroOracle
  | NoPendingRotation
  | RotationNoticeActive
  | MintAuthorityRetained
  | FreezeAuthorityRetained
deriving DecidableEq, Repr

/-! ## Accounts -/

inductive VaultKind where
  | Beneficiary
  | Purpose
deriving DecidableEq, Repr

def VaultKind.seedByte : VaultKind → U8
  | .Beneficiary => 0
  | .Purpose => 1

structure PolicyWindow where
  authority : Pubkey
  mint : Pubkey
  policyHash : Bytes32
  genesisTs : I64
  currentPeriodIndex : U64
  releasedThisPeriod : U64
  hardCeiling : U64
  silenceFloor : U64
  silenceGraceSeconds : I64
  vaultCount : U32
  bump : U8
deriving DecidableEq

structure MarketInput where
  oracle : Pubkey
  policyHash : Bytes32
  eligibleVolume : U64
  updatedAt : I64
  maxAgeSeconds : I64
  reportCount : U64
  marketCapacityBps : U16
  bump : U8
  /-- The proposed oracle, `Bytes32.zero` when there is none. -/
  pendingOracle : Pubkey
  pendingSince : I64
deriving DecidableEq

structure CovenantVault where
  kind : VaultKind
  depositor : Pubkey
  /-- The beneficiary of a beneficiary vault, the approver of a purpose vault. -/
  authority : Pubkey
  mint : Pubkey
  policyHash : Bytes32
  depositedAmount : U64
  monthlyCap : U64
  releasedTotal : U64
  releasedThisPeriod : U64
  currentPeriodIndex : U64
  genesisTs : I64
  cliffEndTs : I64
  annualReleaseBps : U16
  mintDecimals : U8
  stateBump : U8
  tokenVaultBump : U8
deriving DecidableEq

structure Approval where
  vault : Pubkey
  approver : Pubkey
  destination : Pubkey
  periodIndex : U64
  approvedNeed : U64
  consumed : U64
  createdAt : I64
  bump : U8
deriving DecidableEq

/-- What the program stores at an address. -/
inductive Stored where
  | policy (x : PolicyWindow)
  | market (x : MarketInput)
  | vault (x : CovenantVault)
  | approval (x : Approval)
deriving DecidableEq

namespace Stored

def policy? : Stored → Option PolicyWindow
  | .policy x => some x
  | _ => none

def market? : Stored → Option MarketInput
  | .market x => some x
  | _ => none

def vault? : Stored → Option CovenantVault
  | .vault x => some x
  | _ => none

def approval? : Stored → Option Approval
  | .approval x => some x
  | _ => none

variable {a : Stored}

@[simp] theorem policy?_eq_some {x : PolicyWindow} : a.policy? = some x ↔ a = .policy x := by
  cases a <;> simp [policy?]

@[simp] theorem market?_eq_some {x : MarketInput} : a.market? = some x ↔ a = .market x := by
  cases a <;> simp [market?]

@[simp] theorem vault?_eq_some {x : CovenantVault} : a.vault? = some x ↔ a = .vault x := by
  cases a <;> simp [vault?]

@[simp] theorem approval?_eq_some {x : Approval} : a.approval? = some x ↔ a = .approval x := by
  cases a <;> simp [approval?]

end Stored

/-! ## Addresses -/

def policySeeds (policyHash : Bytes32) : List Bytes := [POLICY_SEED, policyHash.bytes]

def marketSeeds (policyHash : Bytes32) : List Bytes := [MARKET_SEED, policyHash.bytes]

def vaultSeeds (policyHash : Bytes32) (kind : VaultKind) (authority mint : Pubkey) : List Bytes :=
  [VAULT_SEED, policyHash.bytes, [kind.seedByte], authority.bytes, mint.bytes]

def tokenSeeds (vault : Pubkey) : List Bytes := [TOKEN_VAULT_SEED, vault.bytes]

def approvalSeeds (vault : Pubkey) (periodIndex : U64) : List Bytes :=
  [APPROVAL_SEED, vault.bytes, U64.toLe periodIndex]

instance Stored.derived : Derived Stored where
  seeds
    | .policy x => policySeeds x.policyHash
    | .market x => marketSeeds x.policyHash
    | .vault x => vaultSeeds x.policyHash x.kind x.authority x.mint
    | .approval x => approvalSeeds x.vault x.periodIndex
  bump
    | .policy x => x.bump
    | .market x => x.bump
    | .vault x => x.stateBump
    | .approval x => x.bump

/-- The identity of one creator's policy for one mint. -/
def boundPolicyHash (chain : Chain) (authority mint : Pubkey) (policySpecHash : Bytes32) :
    Bytes32 :=
  chain.sha256 (ascii "k4v-policy-authority-v1" ++ ID.bytes ++ authority.bytes ++ mint.bytes ++
    policySpecHash.bytes)

/-! ## Policy -/

def monthlyCap (deposit : U64) (annualReleaseBps : U16) : Result CovenantError U64 :=
  FundingVaults.monthlyCap (CovenantError.ArithmeticOverflow : Failure CovenantError) deposit
    annualReleaseBps

def marketCapacity (eligibleVolume : U64) (marketCapacityBps : U16) : Result CovenantError U64 := do
  let product ← okOr (checkedMul128 eligibleVolume.val marketCapacityBps.val)
    CovenantError.ArithmeticOverflow
  let capacity := product / 10000
  okOr (U64.tryFrom capacity) CovenantError.ArithmeticOverflow

def effectiveCapacity (eligibleVolume : U64) (marketCapacityBps : U16) (hardCeiling : U64) :
    Result CovenantError U64 := do
  let capacity ← marketCapacity eligibleVolume marketCapacityBps
  pure (min capacity hardCeiling)

def periodIndex (now genesisTs : I64) : Result CovenantError U64 :=
  FundingVaults.periodIndex (CovenantError.ArithmeticOverflow : Failure CovenantError)
    CovenantError.InvalidClock CovenantError.InvalidClock now genesisTs

structure WindowInputs where
  now : I64
  updatedAt : I64
  reportCount : U64
  maxAgeSeconds : I64
  eligibleVolume : U64
  marketCapacityBps : U16
  hardCeiling : U64
  silenceFloor : U64
  silenceGraceSeconds : I64

def assertFresh (now updatedAt maxAgeSeconds : I64) : Result CovenantError Unit := do
  let age ← okOr (now.checkedSub updatedAt) CovenantError.InvalidClock
  require (0 ≤ age ∧ age ≤ maxAgeSeconds) CovenantError.StaleMarketInput

def windowCapacity (inputs : WindowInputs) : Result CovenantError U64 := do
  require (inputs.reportCount > 0) CovenantError.StaleMarketInput
  if (assertFresh inputs.now inputs.updatedAt inputs.maxAgeSeconds).isOk then
    effectiveCapacity inputs.eligibleVolume inputs.marketCapacityBps inputs.hardCeiling
  else
    -- The input is stale: only a silence floor can grant a window.
    require (inputs.silenceFloor > 0) CovenantError.StaleMarketInput
    let age ← okOr (inputs.now.checkedSub inputs.updatedAt) CovenantError.InvalidClock
    require (age ≥ inputs.silenceGraceSeconds) CovenantError.StaleMarketInput
    pure (min inputs.silenceFloor inputs.hardCeiling)

/-! ## What the policy says -/

section Specs

variable {now : I64} {c : U64}

theorem monthlyCap_eq_ok {deposit : U64} {bps : U16} :
    monthlyCap deposit bps = .ok c ↔ c.val = monthlyShare deposit.val bps.val :=
  FundingVaults.monthlyCap_eq_ok

theorem periodIndex_eq_ok {genesisTs : I64} :
    periodIndex now genesisTs = .ok c ↔
      genesisTs ≤ now ∧ now.val - genesisTs.val < 2 ^ 63 ∧ c.val = periodOf genesisTs now :=
  FundingVaults.periodIndex_eq_ok

/-- The report is neither from the future nor older than the policy tolerates. -/
def Fresh (now updatedAt maxAgeSeconds : I64) : Prop :=
  0 ≤ now.val - updatedAt.val ∧ now.val - updatedAt.val ≤ maxAgeSeconds.val

theorem assertFresh_isOk {updatedAt maxAge : I64} :
    (assertFresh now updatedAt maxAge).isOk ↔ Fresh now updatedAt maxAge := by
  have hlt := maxAge.lt
  have hok : (∃ u, assertFresh now updatedAt maxAge = .ok u) ↔ Fresh now updatedAt maxAge := by
    simp only [assertFresh, bind_eq_ok, okOr_eq_ok, require_eq_ok, I64.checkedSub_eq_some,
      I64.le_iff, I64.val_zero, Fresh]
    constructor
    · rintro ⟨-, age, hage, h₀, h₁⟩
      exact ⟨hage ▸ h₀, hage ▸ h₁⟩
    · rintro ⟨h₀, h₁⟩
      obtain ⟨age, hage⟩ := I64.exists_val_eq (x := now.val - updatedAt.val) (by omega) (by omega)
      exact ⟨(), age, hage, hage ▸ h₀, hage ▸ h₁⟩
  rw [← hok]
  cases assertFresh now updatedAt maxAge <;> simp [Except.isOk, Except.toBool]

/-- A window needs a first report, and never exceeds the hard ceiling. -/
theorem windowCapacity_le {inputs : WindowInputs} (h : windowCapacity inputs = .ok c) :
    0 < inputs.reportCount ∧ c ≤ inputs.hardCeiling := by
  simp only [windowCapacity, bind_eq_ok, require_eq_ok, exists_const] at h
  obtain ⟨hcount, h⟩ := h
  refine ⟨hcount, ?_⟩
  split at h
  · simp only [effectiveCapacity, bind_eq_ok, pure_eq_ok] at h
    obtain ⟨capacity, -, rfl⟩ := h
    exact min_le_right _ _
  · simp only [bind_eq_ok, require_eq_ok, okOr_eq_ok, pure_eq_ok, exists_const] at h
    obtain ⟨-, age, -, -, rfl⟩ := h
    exact min_le_right _ _

/-- A stale input opens a window only to a policy with a silence floor, after its grace. -/
theorem windowCapacity_stale {inputs : WindowInputs} (h : windowCapacity inputs = .ok c)
    (hstale : ¬ Fresh inputs.now inputs.updatedAt inputs.maxAgeSeconds) :
    0 < inputs.silenceFloor ∧
      inputs.silenceGraceSeconds.val ≤ inputs.now.val - inputs.updatedAt.val := by
  simp only [windowCapacity, bind_eq_ok, require_eq_ok, exists_const, assertFresh_isOk, hstale,
    ↓reduceIte, okOr_eq_ok, pure_eq_ok, I64.checkedSub_eq_some] at h
  obtain ⟨-, hfloor, age, hage, hgrace, -⟩ := h
  exact ⟨hfloor, hage ▸ hgrace⟩

end Specs

end FundingVaults.PurposeVault
