import FundingVaults.Beneficiary.Exporter

/-!
# The verifier of beneficiary vaults

Transcription of `verify_snapshot` of `beneficiary_vault_verifier.py`.  Its findings accumulate in
what the function has computed so far, which an exception leaves as it is.  The constants that the
verifier repeats from the program are the program's.

`InOrder` is what the verifier asks of a vault and its token account.  The snapshot of a vault in
order has at most one finding: that the vault holds wrapped SOL.
-/

namespace FundingVaults.Beneficiary

open Verifier

/-! ## Constants and results -/

def BPS_DENOMINATOR : ℤ := 10000
def MONTHS_PER_YEAR : ℤ := 12
def PERIOD_SECONDS : ℤ := 30 * 24 * 60 * 60

inductive Finding where
  | SCHEMA_MISMATCH
  | STATE_PDA_MISMATCH
  | TOKEN_VAULT_PDA_MISMATCH
  | STATE_BUMP_MISMATCH
  | TOKEN_VAULT_BUMP_MISMATCH
  | ZERO_POLICY_HASH
  | INVALID_DEPOSIT
  | INVALID_ANNUAL_RELEASE_RATE
  | MONTHLY_CAP_MISMATCH
  | CLIFF_TOO_SHORT
  | PERIOD_CAP_EXCEEDED
  | DEPOSIT_EXCEEDED
  | TOKEN_CONSERVATION_FAILURE
  | TOKEN_MINT_MISMATCH
  | TOKEN_AUTHORITY_MISMATCH
  | TOKEN_ACCOUNT_NOT_ACTIVE
  | TOKEN_DELEGATE_PRESENT
  | TOKEN_DELEGATED_AMOUNT_PRESENT
  | TOKEN_CLOSE_AUTHORITY_PRESENT
  | NATIVE_TOKEN_ACCOUNT_UNSUPPORTED
  | OBSERVATION_BEFORE_GENESIS
  | RELEASE_BEFORE_CLIFF
  | PERIOD_FROM_FUTURE
  | MALFORMED_SNAPSHOT
deriving DecidableEq, Repr

structure Verification where
  valid : Bool
  reasons : List Finding
  expectedStatePda : Option String
  expectedTokenVaultPda : Option String
  expectedMonthlyCap : Option ℤ
  observedPeriodIndex : Option ℤ
  currentlyReleasableAmount : ℤ
  tokenSurplusAmount : ℤ
deriving DecidableEq

/-- The local variables of `verify_snapshot`. -/
structure Locals where
  reasons : List Finding
  expectedStatePda : Option String
  expectedTokenVaultPda : Option String
  expectedCap : Option ℤ
  observedPeriod : Option ℤ
  releasable : ℤ
  surplus : ℤ

/-! ## Checks -/

abbrev Check := Lent String Locals

/-- `reasons.append`, on a condition. -/
def flag (c : Prop) [Decidable c] (f : Finding) : Check PUnit :=
  if c then modify fun s ↦ { s with reasons := s.reasons ++ [f] } else pure ⟨⟩

def boundedInteger (value : ℤ) (name : String) (minimum maximum : ℤ) : Except String PUnit :=
  require (minimum ≤ value ∧ value ≤ maximum) (name ++ " is outside its on-chain integer range")

section Verify

variable (sha256 : Bytes → Bytes32) (snapshot : Snapshot)

/-- The keys, the derived addresses and the bumps. -/
def verifyAddresses : Check PUnit := do
  let state := snapshot.state
  let programId ← .check (pubkey snapshot.programId)
  let beneficiary ← .check (pubkey state.beneficiary)
  let mint ← .check (pubkey state.mint)
  let policyHash ← .check (okOr (fromHex? state.policyHash.toList) "non-hexadecimal number found")
  .check (require (policyHash.length = 32) "policy hash must be 32 bytes")
  let (statePda, stateBump) ← .check
    (findProgramAddress sha256 [STATE_SEED, beneficiary, mint, policyHash] programId)
  let expectedStatePda := base58Encode statePda
  modify fun s ↦ { s with expectedStatePda := some expectedStatePda }
  let (tokenPda, tokenBump) ← .check
    (findProgramAddress sha256 [TOKEN_VAULT_SEED, statePda] programId)
  let expectedTokenVaultPda := base58Encode tokenPda
  modify fun s ↦ { s with expectedTokenVaultPda := some expectedTokenVaultPda }
  flag (snapshot.vaultState ≠ expectedStatePda) .STATE_PDA_MISMATCH
  flag (snapshot.vaultTokenAccount ≠ expectedTokenVaultPda) .TOKEN_VAULT_PDA_MISMATCH
  .check (boundedInteger state.stateBump "state_bump" 0 (2 ^ 8 - 1))
  .check (boundedInteger state.tokenVaultBump "token_vault_bump" 0 (2 ^ 8 - 1))
  flag (state.stateBump ≠ stateBump) .STATE_BUMP_MISMATCH
  flag (state.tokenVaultBump ≠ tokenBump) .TOKEN_VAULT_BUMP_MISMATCH
  flag (policyHash = List.replicate 32 0) .ZERO_POLICY_HASH

/-- The ranges of the numbers. -/
def verifyRanges : Check PUnit := do
  let state := snapshot.state
  .check (boundedInteger state.depositedAmount "deposited_amount" 0 (2 ^ 64 - 1))
  .check (boundedInteger state.annualReleaseBps "annual_release_bps" 0 (2 ^ 16 - 1))
  .check (boundedInteger state.monthlyCap "monthly_cap" 0 (2 ^ 64 - 1))
  .check (boundedInteger state.releasedTotal "released_total" 0 (2 ^ 64 - 1))
  .check (boundedInteger state.releasedThisPeriod "released_this_period" 0 (2 ^ 64 - 1))
  .check (boundedInteger state.currentPeriodIndex "current_period_index" 0 (2 ^ 64 - 1))
  .check (boundedInteger state.genesisTs "genesis_ts" (-2 ^ 63) (2 ^ 63 - 1))
  .check (boundedInteger state.cliffEndTs "cliff_end_ts" (-2 ^ 63) (2 ^ 63 - 1))
  .check (boundedInteger snapshot.observedAtTs "observed_at_ts" (-2 ^ 63) (2 ^ 63 - 1))
  .check (boundedInteger snapshot.tokenAccount.amount "token amount" 0 (2 ^ 64 - 1))
  .check (boundedInteger state.mintDecimals "mint_decimals" 0 (2 ^ 8 - 1))

/-- The terms, the counters and the balance. -/
def verifyAccounting : Check PUnit := do
  let state := snapshot.state
  flag (state.depositedAmount ≤ 0) .INVALID_DEPOSIT
  flag (¬ (1 ≤ state.annualReleaseBps ∧ state.annualReleaseBps ≤ MAX_ANNUAL_RELEASE_BPS.val))
    .INVALID_ANNUAL_RELEASE_RATE
  let expectedCap :=
    state.depositedAmount * state.annualReleaseBps / BPS_DENOMINATOR / MONTHS_PER_YEAR
  modify fun s ↦ { s with expectedCap := some expectedCap }
  flag (state.monthlyCap ≠ expectedCap ∨ expectedCap ≤ 0) .MONTHLY_CAP_MISMATCH
  flag (state.cliffEndTs - state.genesisTs < MIN_CLIFF_SECONDS) .CLIFF_TOO_SHORT
  flag (state.releasedThisPeriod > state.monthlyCap) .PERIOD_CAP_EXCEEDED
  flag (state.releasedTotal > state.depositedAmount) .DEPOSIT_EXCEEDED
  let accountedTokens := snapshot.tokenAccount.amount + state.releasedTotal
  if accountedTokens < state.depositedAmount then flag True .TOKEN_CONSERVATION_FAILURE
  else modify fun s ↦ { s with surplus := accountedTokens - state.depositedAmount }

/-- The token account. -/
def verifyToken : Check PUnit := do
  let token := snapshot.tokenAccount
  flag (token.mint ≠ snapshot.state.mint) .TOKEN_MINT_MISMATCH
  flag (token.authority ≠ snapshot.vaultState) .TOKEN_AUTHORITY_MISMATCH
  flag (token.state ≠ "initialized") .TOKEN_ACCOUNT_NOT_ACTIVE
  flag (token.delegate ≠ none) .TOKEN_DELEGATE_PRESENT
  flag (token.delegatedAmount ≠ 0) .TOKEN_DELEGATED_AMOUNT_PRESENT
  flag (token.closeAuthority ≠ none) .TOKEN_CLOSE_AUTHORITY_PRESENT
  flag token.isNative .NATIVE_TOKEN_ACCOUNT_UNSUPPORTED

/-- The period, and what can be released in it. -/
def verifyPeriod : Check PUnit :=
  let state := snapshot.state
  if snapshot.observedAtTs < state.genesisTs then flag True .OBSERVATION_BEFORE_GENESIS
  else if snapshot.observedAtTs < state.cliffEndTs then
    flag (state.releasedTotal ≠ 0) .RELEASE_BEFORE_CLIFF
  else do
    let observedPeriod := (snapshot.observedAtTs - state.cliffEndTs) / PERIOD_SECONDS
    modify fun s ↦ { s with observedPeriod := some observedPeriod }
    if state.currentPeriodIndex > observedPeriod then flag True .PERIOD_FROM_FUTURE
    else if state.currentPeriodIndex < observedPeriod then
      modify fun s ↦ { s with
        releasable := min state.monthlyCap (state.depositedAmount - state.releasedTotal) }
    else
      modify fun s ↦ { s with
        releasable := min (state.monthlyCap - state.releasedThisPeriod)
          (state.depositedAmount - state.releasedTotal) }

def verifyBody : Check PUnit := do
  verifyAddresses sha256 snapshot
  verifyRanges snapshot
  verifyAccounting snapshot
  verifyToken snapshot
  verifyPeriod snapshot

/-- The local variables at the start of the `try`. -/
def Locals.initial : Locals where
  reasons := if snapshot.schema ≠ SNAPSHOT_SCHEMA then [.SCHEMA_MISMATCH] else []
  expectedStatePda := none
  expectedTokenVaultPda := none
  expectedCap := none
  observedPeriod := none
  releasable := 0
  surplus := 0

def verifySnapshot : Verification :=
  let (outcome, s) := (verifyBody sha256 snapshot).run.run (.initial snapshot)
  let reasons := match outcome with
    | .ok _ => s.reasons
    | .error _ => s.reasons ++ [Finding.MALFORMED_SNAPSHOT]
  { valid := reasons.isEmpty
    reasons := reasons.eraseDups
    expectedStatePda := s.expectedStatePda
    expectedTokenVaultPda := s.expectedTokenVaultPda
    expectedMonthlyCap := s.expectedCap
    observedPeriodIndex := s.observedPeriod
    currentlyReleasableAmount := max 0 s.releasable
    tokenSurplusAmount := s.surplus }

end Verify

/-! ## The rules of a check -/

section Rules

variable {α : Type} {s s' : Locals} {f : α → Check PUnit} {g : PUnit → Check PUnit} {c : Prop}
  [Decidable c] {finding : Finding} {result : Except String PUnit × Locals}

theorem bind_run {m : Check PUnit} (hm : m.run.run s = (.ok ⟨⟩, s'))
    (hg : (g ⟨⟩).run.run s' = result) : (m >>= g).run.run s = result := by
  rw [ExceptT.run_bind, StateT.run_bind, hm]
  exact hg

theorem check_bind {x : Except String α} {a : α} (hx : x = .ok a)
    (hf : (f a).run.run s = result) : (Lent.check x >>= f).run.run s = result := by
  subst hx
  exact hf

theorem guard_bind {x : Except String PUnit} (hx : x = .ok ⟨⟩)
    (hg : (g ⟨⟩).run.run s = result) : (Lent.check x >>= g).run.run s = result := check_bind hx hg

theorem guard_run {x : Except String PUnit} (hx : x = .ok ⟨⟩) :
    (Lent.check x : Check PUnit).run.run s = (.ok ⟨⟩, s) := by
  subst hx
  rfl

theorem modify_bind {h : Locals → Locals} (hg : (g ⟨⟩).run.run (h s) = result) :
    (modify h >>= g : Check PUnit).run.run s = result := hg

theorem modify_run {h : Locals → Locals} : (modify h : Check PUnit).run.run s = (.ok ⟨⟩, h s) := rfl

theorem if_run_pos {m m' : Check PUnit} (hc : c) (hm : m.run.run s = result) :
    (if c then m else m').run.run s = result := by rwa [if_pos hc]

theorem if_run {m m' : Check PUnit} (hc : ¬ c) (hm : m'.run.run s = result) :
    (if c then m else m').run.run s = result := by rwa [if_neg hc]

theorem flag_run_eq : (flag c finding).run.run s =
    (.ok ⟨⟩, { s with reasons := s.reasons ++ if c then [finding] else [] }) := by
  unfold flag
  split
  · rfl
  · rw [List.append_nil]
    rfl

theorem flag_run (hc : ¬ c) : (flag c finding).run.run s = (.ok ⟨⟩, s) := by
  rw [flag_run_eq, if_neg hc, List.append_nil]

theorem flag_bind (hc : ¬ c) (hg : (g ⟨⟩).run.run s = result) :
    (flag c finding >>= g).run.run s = result := bind_run (flag_run hc) hg

end Rules

/-! ## Vaults in order -/

/-- What the verifier asks of the vault `v` at `key` and of its token account `a`. -/
structure InOrder (key : Pubkey) (v : BeneficiaryVault) (a : TokenAccount) (now : I64) : Prop where
  hash : v.policyHash ≠ Bytes32.zero
  deposit : 0 < v.depositedAmount.val
  rate : 1 ≤ v.annualReleaseBps.val ∧ v.annualReleaseBps.val ≤ MAX_ANNUAL_RELEASE_BPS.val
  cap : v.monthlyCap.val = monthlyShare v.depositedAmount.val v.annualReleaseBps.val
  positive : 0 < v.monthlyCap.val
  cliff : MIN_CLIFF_SECONDS ≤ v.cliffEndTs.val - v.genesisTs.val
  period : v.releasedThisPeriod ≤ v.monthlyCap
  total : v.releasedTotal ≤ v.depositedAmount
  funded : v.depositedAmount.val ≤ a.amount + v.releasedTotal.val
  fits : a.amount < 2 ^ 64
  owned : a.SoleOwner v.mint key
  undelegated : a.delegatedAmount = 0
  genesis : v.genesisTs ≤ now
  early : now < v.cliffEndTs → v.releasedTotal = 0
  current : v.cliffEndTs ≤ now → v.currentPeriodIndex.val ≤ periodOf v.cliffEndTs now

/-- What a vault still releases at a time, by its counters. -/
def BeneficiaryVault.releasable (v : BeneficiaryVault) (now : I64) : ℕ :=
  if now < v.cliffEndTs then 0
  else min (v.monthlyCap.val -
      if v.currentPeriodIndex.val < FundingVaults.periodOf v.cliffEndTs now then 0
      else v.releasedThisPeriod.val)
    (v.depositedAmount.val - v.releasedTotal.val)

section InOrder

variable {sha256 : Bytes → Bytes32} {key token : Pubkey} {v : BeneficiaryVault} {a : TokenAccount}
  {now : I64} {s : Locals}

theorem boundedInteger_eq_ok {value minimum maximum : ℤ} {name : String} {u : PUnit} :
    boundedInteger value name minimum maximum = .ok u ↔ minimum ≤ value ∧ value ≤ maximum :=
  require_eq_ok

theorem verifyAddresses_of (h : v.policyHash ≠ Bytes32.zero)
    (hstate : findProgramAddress sha256
      [STATE_SEED, v.beneficiary.bytes, v.mint.bytes, v.policyHash.bytes] ID.bytes =
      .ok (key.bytes, (v.stateBump.toNat : ℤ)))
    (htoken : findProgramAddress sha256 [TOKEN_VAULT_SEED, key.bytes] ID.bytes =
      .ok (token.bytes, (v.tokenVaultBump.toNat : ℤ))) :
    (verifyAddresses sha256 (.of key token v a now)).run.run s = (.ok ⟨⟩, { s with
      expectedStatePda := some (shown key), expectedTokenVaultPda := some (shown token) }) := by
  have hbump : ∀ b : U8, (b.toNat : ℤ) ≤ 2 ^ 8 - 1 := fun b ↦ by
    have := b.toNat_lt
    omega
  have hzero : ¬ v.policyHash.bytes = List.replicate 32 0 := fun heq ↦ h (Bytes32.ext heq)
  refine check_bind (pubkey_shown ID) <| check_bind (pubkey_shown v.beneficiary) <|
    check_bind (pubkey_shown v.mint) <|
    check_bind (okOr_eq_ok.mpr (fromHex?_hexEncode v.policyHash.bytes)) <|
    guard_bind (require_eq_ok.mpr v.policyHash.length_eq) <| check_bind hstate <| modify_bind <|
    check_bind htoken <| modify_bind <| flag_bind (not_not.mpr rfl) <|
    flag_bind (not_not.mpr rfl) <| guard_bind (boundedInteger_eq_ok.mpr ⟨?_, hbump _⟩) <|
    guard_bind (boundedInteger_eq_ok.mpr ⟨?_, hbump _⟩) <| flag_bind (not_not.mpr rfl) <|
    flag_bind (not_not.mpr rfl) <| flag_run hzero
  · exact Int.natCast_nonneg _
  · exact Int.natCast_nonneg _

theorem verifyRanges_of (h : a.amount < 2 ^ 64) :
    (verifyRanges (.of key token v a now)).run.run s = (.ok ⟨⟩, s) := by
  have hu64 : ∀ (x : U64) (name : String), boundedInteger x.val name 0 (2 ^ 64 - 1) = .ok ⟨⟩ :=
    fun x name ↦ boundedInteger_eq_ok.mpr (by have := x.isLt; omega)
  have hi64 : ∀ (x : I64) (name : String),
      boundedInteger x.val name (-2 ^ 63) (2 ^ 63 - 1) = .ok ⟨⟩ :=
    fun x name ↦ boundedInteger_eq_ok.mpr (by have := x.ge; have := x.lt; omega)
  have hbps : boundedInteger v.annualReleaseBps.val "annual_release_bps" 0 (2 ^ 16 - 1) =
      .ok ⟨⟩ := boundedInteger_eq_ok.mpr (by have := v.annualReleaseBps.isLt; omega)
  have hdec : boundedInteger v.mintDecimals.toNat "mint_decimals" 0 (2 ^ 8 - 1) = .ok ⟨⟩ :=
    boundedInteger_eq_ok.mpr (by have := v.mintDecimals.toNat_lt; omega)
  have hamount : boundedInteger a.amount "token amount" 0 (2 ^ 64 - 1) = .ok ⟨⟩ :=
    boundedInteger_eq_ok.mpr (by omega)
  exact guard_bind (hu64 _ _) <| guard_bind hbps <| guard_bind (hu64 _ _) <|
    guard_bind (hu64 _ _) <| guard_bind (hu64 _ _) <| guard_bind (hu64 _ _) <|
    guard_bind (hi64 _ _) <| guard_bind (hi64 _ _) <| guard_bind (hi64 _ _) <|
    guard_bind hamount <| guard_run hdec

theorem verifyAccounting_of (h : InOrder key v a now) :
    (verifyAccounting (.of key token v a now)).run.run s = (.ok ⟨⟩, { s with
      expectedCap := some v.monthlyCap.val
      surplus := a.amount + v.releasedTotal.val - v.depositedAmount.val }) := by
  have hcap : (v.depositedAmount.val * v.annualReleaseBps.val / BPS_DENOMINATOR /
      MONTHS_PER_YEAR : ℤ) = v.monthlyCap.val := by
    rw [h.cap]
    rfl
  have hpositive := h.positive
  have hdeposit := h.deposit
  have hrate := h.rate
  have hmatch : ¬ ((v.monthlyCap.val : ℤ) ≠ v.depositedAmount.val * v.annualReleaseBps.val /
      BPS_DENOMINATOR / MONTHS_PER_YEAR ∨ (v.depositedAmount.val * v.annualReleaseBps.val /
      BPS_DENOMINATOR / MONTHS_PER_YEAR : ℤ) ≤ 0) := by
    rw [hcap]
    omega
  have hperiod := Fin.le_def.mp h.period
  have htotal := Fin.le_def.mp h.total
  have hfunded := h.funded
  refine flag_bind (?_ : ¬ (v.depositedAmount.val : ℤ) ≤ 0) <|
    flag_bind (?_ : ¬ ¬ (1 ≤ (v.annualReleaseBps.val : ℤ) ∧
      (v.annualReleaseBps.val : ℤ) ≤ MAX_ANNUAL_RELEASE_BPS.val)) <| modify_bind <|
    flag_bind hmatch <| flag_bind (not_lt.mpr h.cliff) <|
    flag_bind (?_ : ¬ (v.releasedThisPeriod.val : ℤ) > v.monthlyCap.val) <|
    flag_bind (?_ : ¬ (v.releasedTotal.val : ℤ) > v.depositedAmount.val) <|
    if_run (?_ : ¬ (a.amount + v.releasedTotal.val : ℤ) < v.depositedAmount.val) ?_
  · omega
  · omega
  · omega
  · omega
  · omega
  · rw [modify_run, ← hcap]
    rfl

theorem verifyToken_of (h : InOrder key v a now) :
    (verifyToken (.of key token v a now)).run.run s = (.ok ⟨⟩, { s with
      reasons := s.reasons ++
        if a.isNative.isSome then [.NATIVE_TOKEN_ACCOUNT_UNSUPPORTED] else [] }) := by
  refine flag_bind (not_not.mpr (congrArg shown h.owned.mint)) <|
    flag_bind (not_not.mpr (congrArg shown h.owned.owner)) <|
    flag_bind (not_not.mpr (if_pos h.owned.state)) <|
    flag_bind (not_not.mpr (by simp [Snapshot.of, TokenView.of, h.owned.delegate])) <|
    flag_bind (not_not.mpr (by simp [Snapshot.of, TokenView.of, h.undelegated])) <|
    flag_bind (not_not.mpr (by simp [Snapshot.of, TokenView.of, h.owned.closeAuthority]))
      flag_run_eq

theorem periodOf_eq (h : v.cliffEndTs ≤ now) :
    (now.val - v.cliffEndTs.val) / PERIOD_SECONDS = (periodOf v.cliffEndTs now : ℤ) := by
  rw [I64.le_iff] at h
  unfold periodOf periodSeconds PERIOD_SECONDS
  omega

theorem verifyPeriod_of (h : InOrder key v a now) (hperiod : s.observedPeriod = none)
    (hzero : s.releasable = 0) :
    (verifyPeriod (.of key token v a now)).run.run s = (.ok ⟨⟩, { s with
      observedPeriod :=
        if now < v.cliffEndTs then none else some (periodOf v.cliffEndTs now : ℤ)
      releasable := v.releasable now }) := by
  refine if_run (?_ : ¬ now.val < v.genesisTs.val) ?_
  · exact not_lt.mpr (I64.le_iff.mp h.genesis)
  have htotal := Fin.le_def.mp h.total
  have hused := Fin.le_def.mp h.period
  by_cases hnow : now < v.cliffEndTs
  · have hnone : ¬ (v.releasedTotal.val : ℤ) ≠ 0 := by simp [h.early hnow]
    refine (if_run_pos hnow (flag_run hnone)).trans ?_
    rw [BeneficiaryVault.releasable, if_pos hnow, if_pos hnow, Nat.cast_zero]
    cases s
    subst hperiod hzero
    rfl
  have hlate := I64.not_lt.mp hnow
  have hcurrent := h.current hlate
  have hindex := periodOf_eq hlate
  rw [if_neg hnow, BeneficiaryVault.releasable, if_neg hnow, ← hindex]
  refine if_run (?_ : ¬ now.val < v.cliffEndTs.val) <| modify_bind <|
    if_run (?_ : ¬ (v.currentPeriodIndex.val : ℤ) > (now.val - v.cliffEndTs.val) / PERIOD_SECONDS) ?_
  · exact hnow
  · omega
  by_cases hrolled : v.currentPeriodIndex.val < periodOf v.cliffEndTs now
  · have hreset : (v.currentPeriodIndex.val : ℤ) <
        (now.val - v.cliffEndTs.val) / PERIOD_SECONDS := by omega
    refine if_run_pos hreset ?_
    rw [if_pos hrolled, modify_run, Nat.cast_min, Nat.cast_sub htotal]
    rfl
  · have hsame : ¬ (v.currentPeriodIndex.val : ℤ) <
        (now.val - v.cliffEndTs.val) / PERIOD_SECONDS := by omega
    refine if_run hsame ?_
    rw [if_neg hrolled, modify_run, Nat.cast_min, Nat.cast_sub htotal, Nat.cast_sub hused]
    rfl

theorem verifyBody_of (h : InOrder key v a now)
    (hstate : findProgramAddress sha256
      [STATE_SEED, v.beneficiary.bytes, v.mint.bytes, v.policyHash.bytes] ID.bytes =
      .ok (key.bytes, (v.stateBump.toNat : ℤ)))
    (htoken : findProgramAddress sha256 [TOKEN_VAULT_SEED, key.bytes] ID.bytes =
      .ok (token.bytes, (v.tokenVaultBump.toNat : ℤ))) :
    (verifyBody sha256 (.of key token v a now)).run.run (.initial (.of key token v a now)) =
      (.ok ⟨⟩, {
        reasons := if a.isNative.isSome then [.NATIVE_TOKEN_ACCOUNT_UNSUPPORTED] else []
        expectedStatePda := some (shown key)
        expectedTokenVaultPda := some (shown token)
        expectedCap := some v.monthlyCap.val
        observedPeriod :=
          if now < v.cliffEndTs then none else some (periodOf v.cliffEndTs now : ℤ)
        releasable := v.releasable now
        surplus := a.amount + v.releasedTotal.val - v.depositedAmount.val }) :=
  bind_run (verifyAddresses_of h.hash hstate htoken) <| bind_run (verifyRanges_of h.fits) <|
    bind_run (verifyAccounting_of h) <| bind_run (verifyToken_of h) <| verifyPeriod_of h rfl rfl

/-- The snapshot of a vault in order is valid unless the vault holds wrapped SOL. -/
theorem verifySnapshot_of (h : InOrder key v a now)
    (hstate : findProgramAddress sha256
      [STATE_SEED, v.beneficiary.bytes, v.mint.bytes, v.policyHash.bytes] ID.bytes =
      .ok (key.bytes, (v.stateBump.toNat : ℤ)))
    (htoken : findProgramAddress sha256 [TOKEN_VAULT_SEED, key.bytes] ID.bytes =
      .ok (token.bytes, (v.tokenVaultBump.toNat : ℤ))) :
    verifySnapshot sha256 (.of key token v a now) = {
      valid := a.isNative.isNone
      reasons := if a.isNative.isSome then [.NATIVE_TOKEN_ACCOUNT_UNSUPPORTED] else []
      expectedStatePda := some (shown key)
      expectedTokenVaultPda := some (shown token)
      expectedMonthlyCap := some v.monthlyCap.val
      observedPeriodIndex :=
        if now < v.cliffEndTs then none else some (periodOf v.cliffEndTs now : ℤ)
      currentlyReleasableAmount := v.releasable now
      tokenSurplusAmount := a.amount + v.releasedTotal.val - v.depositedAmount.val } := by
  rw [verifySnapshot, verifyBody_of h hstate htoken]
  have hsingle : [Finding.NATIVE_TOKEN_ACCOUNT_UNSUPPORTED].eraseDups =
      [.NATIVE_TOKEN_ACCOUNT_UNSUPPORTED] := by decide
  cases a.isNative with
  | none => simp
  | some reserve => simp [hsingle]

end InOrder

end FundingVaults.Beneficiary
