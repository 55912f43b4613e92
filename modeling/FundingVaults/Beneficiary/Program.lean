import FundingVaults.Lib.Anchor
import FundingVaults.Lib.Schedule

/-!
# The beneficiary vault

Transcription of `beneficiary-vault`: the account, the policy functions, the contexts of `deposit`
and `release` and their handlers.  A handler receives the checked accounts and returns the state
it commits together with the token transfer it requests.
-/

namespace FundingVaults.Beneficiary

open Anchor

/-! ## Constants, errors and state -/

/-- The address of the program. -/
def ID : Pubkey := ⟨[163, 89, 117, 237, 216, 233, 116, 80, 133, 51, 119, 82, 232, 19, 7, 123, 0,
  151, 150, 145, 100, 9, 163, 12, 36, 86, 176, 219, 147, 27, 124, 42], rfl⟩

def MAX_ANNUAL_RELEASE_BPS : U16 := 500
def MIN_CLIFF_SECONDS : ℤ := 730 * 24 * 60 * 60

def STATE_SEED : Bytes := ascii "beneficiary-vault"
def TOKEN_VAULT_SEED : Bytes := ascii "beneficiary-token"

inductive VaultError where
  | ZeroAmount
  | InvalidAnnualReleaseRate
  | CliffTooShort
  | ZeroPolicyHash
  | ArithmeticOverflow
  | ZeroMonthlyCap
  | CliffActive
  | PeriodCapExceeded
  | DepositExceeded
  | InvalidClock
  | MintAuthorityRetained
  | FreezeAuthorityRetained
deriving DecidableEq, Repr

structure BeneficiaryVault where
  depositor : Pubkey
  beneficiary : Pubkey
  mint : Pubkey
  policyHash : Bytes32
  depositedAmount : U64
  monthlyCap : U64
  releasedTotal : U64
  releasedThisPeriod : U64
  genesisTs : I64
  cliffEndTs : I64
  currentPeriodIndex : U64
  annualReleaseBps : U16
  mintDecimals : U8
  stateBump : U8
  tokenVaultBump : U8
deriving DecidableEq

def stateSeeds (beneficiary mint : Pubkey) (policyHash : Bytes32) : List Bytes :=
  [STATE_SEED, beneficiary.bytes, mint.bytes, policyHash.bytes]

def tokenSeeds (vaultState : Pubkey) : List Bytes := [TOKEN_VAULT_SEED, vaultState.bytes]

instance BeneficiaryVault.derived : Derived BeneficiaryVault where
  seeds v := stateSeeds v.beneficiary v.mint v.policyHash
  bump v := v.stateBump

/-! ## Policy -/

def monthlyCap (deposit : U64) (annualReleaseBps : U16) : Result VaultError U64 :=
  FundingVaults.monthlyCap (VaultError.ArithmeticOverflow : Failure VaultError) deposit
    annualReleaseBps

def periodIndex (now cliffEndTs : I64) : Result VaultError U64 :=
  FundingVaults.periodIndex (VaultError.ArithmeticOverflow : Failure VaultError)
    VaultError.InvalidClock VaultError.CliffActive now cliffEndTs

/-! ## Deposit -/

structure Deposit where
  depositor : Pubkey
  beneficiary : Pubkey
  mint : Account Mint
  depositorToken : Account TokenAccount
  vaultState : Init
  vaultToken : Init

structure Deposit.Keys where
  depositor : Pubkey
  beneficiary : Pubkey
  mint : Pubkey
  depositorToken : Pubkey
  vaultState : Pubkey
  vaultToken : Pubkey

def Deposit.load (chain : Chain) (L : Ledger BeneficiaryVault) (signers : List Pubkey) (k : Keys)
    (policyHash : Bytes32) : Result VaultError Deposit := do
  signer signers k.depositor
  signer signers k.beneficiary
  let mint ← loadMint L.tokens k.mint
  let depositorToken ← loadToken L.tokens k.depositorToken k.mint
  tokenAuthority depositorToken k.depositor
  let vaultState ← loadInit chain ID L.vacant (stateSeeds k.beneficiary k.mint policyHash)
    k.vaultState
  -- The state account is created first, and its address is taken from then on.
  let vaultToken ← loadInit chain ID (fun key ↦ L.vacant key && key ≠ k.vaultState)
    (tokenSeeds k.vaultState) k.vaultToken
  pure { depositor := k.depositor, beneficiary := k.beneficiary, mint, depositorToken, vaultState,
         vaultToken }

def depositHandler (now : I64) (ctx : Deposit) (amount : U64) (annualReleaseBps : U16)
    (cliffSeconds : I64) (policyHash : Bytes32) :
    Result VaultError (BeneficiaryVault × TransferChecked) := do
  require (ctx.mint.data.mintAuthority = none) VaultError.MintAuthorityRetained
  require (ctx.mint.data.freezeAuthority = none) VaultError.FreezeAuthorityRetained
  require (amount > 0) VaultError.ZeroAmount
  require (1 ≤ annualReleaseBps ∧ annualReleaseBps ≤ MAX_ANNUAL_RELEASE_BPS)
    VaultError.InvalidAnnualReleaseRate
  require (cliffSeconds.val ≥ MIN_CLIFF_SECONDS) VaultError.CliffTooShort
  require (policyHash ≠ Bytes32.zero) VaultError.ZeroPolicyHash
  let cap ← monthlyCap amount annualReleaseBps
  require (cap > 0) VaultError.ZeroMonthlyCap
  let cliffEndTs ← okOr (now.checkedAdd cliffSeconds) VaultError.ArithmeticOverflow
  pure ({
    depositor := ctx.depositor
    beneficiary := ctx.beneficiary
    mint := ctx.mint.key
    policyHash
    depositedAmount := amount
    monthlyCap := cap
    releasedTotal := 0
    releasedThisPeriod := 0
    genesisTs := now
    cliffEndTs
    currentPeriodIndex := 0
    annualReleaseBps
    mintDecimals := ctx.mint.data.decimals
    stateBump := ctx.vaultState.bump
    tokenVaultBump := ctx.vaultToken.bump }, {
    source := ctx.depositorToken.key
    mint := ctx.mint.key
    destination := ctx.vaultToken.key
    authority := ctx.depositor
    amount := amount.val
    decimals := ctx.mint.data.decimals })

/-! ## Release -/

structure Release where
  beneficiary : Pubkey
  mint : Account Mint
  vaultState : Account BeneficiaryVault
  vaultToken : Account TokenAccount
  beneficiaryToken : Account TokenAccount

structure Release.Keys where
  beneficiary : Pubkey
  mint : Pubkey
  vaultState : Pubkey
  vaultToken : Pubkey
  beneficiaryToken : Pubkey

def Release.load (chain : Chain) (L : Ledger BeneficiaryVault) (signers : List Pubkey) (k : Keys) :
    Result VaultError Release := do
  signer signers k.beneficiary
  let mint ← loadMint L.tokens k.mint
  let vaultState ← loadAs L.program some k.vaultState
  hasOne vaultState.data.beneficiary k.beneficiary
  hasOne vaultState.data.mint k.mint
  checkSeeds chain ID (stateSeeds k.beneficiary k.mint vaultState.data.policyHash)
    vaultState.data.stateBump k.vaultState
  let vaultToken ← loadToken L.tokens k.vaultToken k.mint
  checkSeeds chain ID (tokenSeeds k.vaultState) vaultState.data.tokenVaultBump k.vaultToken
  tokenAuthority vaultToken k.vaultState
  let beneficiaryToken ← loadToken L.tokens k.beneficiaryToken k.mint
  tokenAuthority beneficiaryToken k.beneficiary
  pure { beneficiary := k.beneficiary, mint, vaultState, vaultToken, beneficiaryToken }

def releaseHandler (now : I64) (ctx : Release) (amount : U64) :
    Result VaultError (BeneficiaryVault × TransferChecked) := do
  require (amount > 0) VaultError.ZeroAmount
  let period ← periodIndex now ctx.vaultState.data.cliffEndTs
  let state := if period > ctx.vaultState.data.currentPeriodIndex then
      { ctx.vaultState.data with currentPeriodIndex := period, releasedThisPeriod := 0 }
    else ctx.vaultState.data
  let nextPeriodRelease ← okOr (state.releasedThisPeriod.checkedAdd amount)
    VaultError.ArithmeticOverflow
  require (nextPeriodRelease ≤ state.monthlyCap) VaultError.PeriodCapExceeded
  let nextTotal ← okOr (state.releasedTotal.checkedAdd amount) VaultError.ArithmeticOverflow
  require (nextTotal ≤ state.depositedAmount) VaultError.DepositExceeded
  pure ({ state with releasedThisPeriod := nextPeriodRelease, releasedTotal := nextTotal }, {
    source := ctx.vaultToken.key
    mint := ctx.mint.key
    destination := ctx.beneficiaryToken.key
    authority := ctx.vaultState.key
    amount := amount.val
    decimals := state.mintDecimals })

/-! ## The program -/

inductive Instruction where
  | deposit (keys : Deposit.Keys) (amount : U64) (annualReleaseBps : U16) (cliffSeconds : I64)
      (policyHash : Bytes32)
  | release (keys : Release.Keys) (amount : U64)

def process (chain : Chain) (L : Ledger BeneficiaryVault) (tx : Tx Instruction) :
    Result VaultError (Ledger BeneficiaryVault) :=
  match tx.instruction with
  | .deposit keys amount annualReleaseBps cliffSeconds policyHash => do
      let ctx ← Deposit.load chain L tx.signers keys policyHash
      let (v, t) ← depositHandler tx.now ctx amount annualReleaseBps cliffSeconds policyHash
      let L ← (L.createToken keys.vaultToken keys.mint keys.vaultState).transfer chain t
      pure (L.write keys.vaultState v)
  | .release keys amount => do
      let ctx ← Release.load chain L tx.signers keys
      let (v, t) ← releaseHandler tx.now ctx amount
      let L ← L.transfer chain t
      pure (L.write keys.vaultState v)

/-- The program on a platform, among programs that move tokens as `external` allows. -/
def program (chain : Chain) (external : Ledger BeneficiaryVault → Tokens → Prop) :
    Program BeneficiaryVault Instruction VaultError where
  toChain := chain
  process := process chain
  external

/-! ## What the functions return -/

section Specs

variable {now : I64} {amount : U64}

theorem monthlyCap_eq_ok {deposit c : U64} {bps : U16} :
    monthlyCap deposit bps = .ok c ↔ c.val = monthlyShare deposit.val bps.val :=
  FundingVaults.monthlyCap_eq_ok

theorem periodIndex_eq_ok {cliffEndTs : I64} {k : U64} :
    periodIndex now cliffEndTs = .ok k ↔
      cliffEndTs ≤ now ∧ now.val - cliffEndTs.val < 2 ^ 63 ∧ k.val = periodOf cliffEndTs now :=
  FundingVaults.periodIndex_eq_ok

theorem depositHandler_eq_ok {ctx : Deposit} {bps : U16} {cliffSeconds : I64} {policyHash : Bytes32}
    {r : BeneficiaryVault × TransferChecked} :
    depositHandler now ctx amount bps cliffSeconds policyHash = .ok r ↔
      ctx.mint.data.mintAuthority = none ∧ ctx.mint.data.freezeAuthority = none ∧ 0 < amount ∧
        (1 ≤ bps ∧ bps ≤ MAX_ANNUAL_RELEASE_BPS) ∧ MIN_CLIFF_SECONDS ≤ cliffSeconds.val ∧
        policyHash ≠ Bytes32.zero ∧ ∃ cap : U64, cap.val = monthlyShare amount.val bps.val ∧
          0 < cap ∧ ∃ cliffEndTs : I64, now.val + cliffSeconds.val = cliffEndTs.val ∧ ({
            depositor := ctx.depositor
            beneficiary := ctx.beneficiary
            mint := ctx.mint.key
            policyHash
            depositedAmount := amount
            monthlyCap := cap
            releasedTotal := 0
            releasedThisPeriod := 0
            genesisTs := now
            cliffEndTs
            currentPeriodIndex := 0
            annualReleaseBps := bps
            mintDecimals := ctx.mint.data.decimals
            stateBump := ctx.vaultState.bump
            tokenVaultBump := ctx.vaultToken.bump }, {
            source := ctx.depositorToken.key
            mint := ctx.mint.key
            destination := ctx.vaultToken.key
            authority := ctx.depositor
            amount := amount.val
            decimals := ctx.mint.data.decimals }) = r := by
  simp only [depositHandler, bind_eq_ok, require_eq_ok, okOr_eq_ok, pure_eq_ok, exists_const,
    monthlyCap_eq_ok, I64.checkedAdd_eq_some, gt_iff_lt, ge_iff_le]

/-- The state after the period of the release has come. -/
def BeneficiaryVault.roll (v : BeneficiaryVault) (period : U64) : BeneficiaryVault :=
  if period > v.currentPeriodIndex then
    { v with currentPeriodIndex := period, releasedThisPeriod := 0 }
  else v

/-- What has been released in the period, according to the state. -/
def BeneficiaryVault.usedIn (v : BeneficiaryVault) (period : U64) : ℕ :=
  if v.currentPeriodIndex.val < period.val then 0 else v.releasedThisPeriod.val

/-- A release adds its amount to the counters of its period, within the cap and the deposit. -/
theorem releaseHandler_eq_ok {ctx : Release} {v' : BeneficiaryVault} {t : TransferChecked} :
    releaseHandler now ctx amount = .ok (v', t) ↔
      0 < amount.val ∧ ctx.vaultState.data.cliffEndTs ≤ now ∧
        now.val - ctx.vaultState.data.cliffEndTs.val < 2 ^ 63 ∧ ∃ period used total : U64,
          period.val = periodOf ctx.vaultState.data.cliffEndTs now ∧
          used.val = ctx.vaultState.data.usedIn period + amount.val ∧
          used ≤ ctx.vaultState.data.monthlyCap ∧
          total.val = ctx.vaultState.data.releasedTotal.val + amount.val ∧
          total ≤ ctx.vaultState.data.depositedAmount ∧
          { ctx.vaultState.data.roll period with
            releasedThisPeriod := used, releasedTotal := total } = v' ∧ {
          source := ctx.vaultToken.key
          mint := ctx.mint.key
          destination := ctx.beneficiaryToken.key
          authority := ctx.vaultState.key
          amount := amount.val
          decimals := ctx.vaultState.data.mintDecimals } = t := by
  have hroll : ∀ (v : BeneficiaryVault) (k : U64), (v.roll k).releasedThisPeriod.val = v.usedIn k ∧
      (v.roll k).monthlyCap = v.monthlyCap ∧ (v.roll k).releasedTotal = v.releasedTotal ∧
      (v.roll k).depositedAmount = v.depositedAmount ∧
      (v.roll k).mintDecimals = v.mintDecimals := by
    intro v k
    unfold BeneficiaryVault.roll BeneficiaryVault.usedIn
    simp only [gt_iff_lt, Fin.lt_def]
    split <;> simp
  simp only [releaseHandler, bind_eq_ok, require_eq_ok, okOr_eq_ok, pure_eq_ok, exists_const,
    periodIndex_eq_ok, U64.checkedAdd_eq_some, gt_iff_lt, Prod.mk.injEq]
  constructor
  · rintro ⟨h₀, k, ⟨hcliff, hlt, hk⟩, used, hused, hcap, total, htotal, hdep, rfl, rfl⟩
    change ((ctx.vaultState.data.roll k).releasedThisPeriod.val + _ = _) at hused
    change used ≤ (ctx.vaultState.data.roll k).monthlyCap at hcap
    change ((ctx.vaultState.data.roll k).releasedTotal.val + _ = _) at htotal
    change total ≤ (ctx.vaultState.data.roll k).depositedAmount at hdep
    obtain ⟨h₁, h₂, h₃, h₄, h₅⟩ := hroll ctx.vaultState.data k
    rw [h₁] at hused
    rw [h₂] at hcap
    rw [h₃] at htotal
    rw [h₄] at hdep
    refine ⟨h₀, hcliff, hlt, k, used, total, hk, hused.symm, hcap, htotal.symm, hdep, rfl, ?_⟩
    exact congrArg (TransferChecked.mk _ _ _ _ _) h₅.symm
  · rintro ⟨h₀, hcliff, hlt, k, used, total, hk, hused, hcap, htotal, hdep, rfl, rfl⟩
    obtain ⟨h₁, h₂, h₃, h₄, h₅⟩ := hroll ctx.vaultState.data k
    refine ⟨h₀, k, ⟨hcliff, hlt, hk⟩, used, ?_, ?_, total, ?_, ?_, rfl, ?_⟩
    · change (ctx.vaultState.data.roll k).releasedThisPeriod.val + _ = _
      rw [h₁, hused]
    · change used ≤ (ctx.vaultState.data.roll k).monthlyCap
      rwa [h₂]
    · change (ctx.vaultState.data.roll k).releasedTotal.val + _ = _
      rw [h₃, htotal]
    · change total ≤ (ctx.vaultState.data.roll k).depositedAmount
      rwa [h₄]
    · exact congrArg (TransferChecked.mk _ _ _ _ _) h₅

end Specs

end FundingVaults.Beneficiary
