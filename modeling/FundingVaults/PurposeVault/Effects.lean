import FundingVaults.PurposeVault.Program

/-!
# What an accepted instruction does

One structure for each kind of accepted instruction, with what it found and what it commits, and
one inversion lemma for each.  The proofs about runs use these and never unfold a handler.
-/

namespace FundingVaults.PurposeVault

open Anchor

variable {chain : Chain} {L L' : Ledger Stored} {now : I64} {signers : List Pubkey}

/-! ## Opening a policy -/

/-- An accepted opening of the policy `p` and its market input `m`. -/
structure Opened (chain : Chain) (L : Ledger Stored) (now : I64) (signers : List Pubkey)
    (k : OpenPolicy.Keys) (args : OpenPolicy.Args) (p : PolicyWindow) (m : MarketInput) : Prop where
  signed : k.authority ∈ signers
  policy : chain.findProgramAddress (policySeeds p.policyHash) ID = (k.policy, p.bump)
  policyVacant : L.vacant k.policy
  market : chain.findProgramAddress (marketSeeds p.policyHash) ID = (k.market, m.bump)
  marketVacant : L.vacant k.market
  distinct : k.market ≠ k.policy
  rate : 1 ≤ m.marketCapacityBps ∧ m.marketCapacityBps ≤ MAX_MARKET_CAPACITY_BPS
  ceiling : 0 < p.hardCeiling
  opened : p = {
    authority := k.authority, mint := k.mint
    policyHash := boundPolicyHash chain k.authority k.mint args.policySpecHash
    genesisTs := now, currentPeriodIndex := 0, releasedThisPeriod := 0
    hardCeiling := args.hardCeiling, silenceFloor := args.silenceFloor
    silenceGraceSeconds := args.silenceGraceSeconds, vaultCount := 0, bump := p.bump }
  input : m = {
    oracle := k.oracle, policyHash := p.policyHash, eligibleVolume := 0, updatedAt := 0
    maxAgeSeconds := args.maxAgeSeconds, reportCount := 0
    marketCapacityBps := args.marketCapacityBps, bump := m.bump, pendingOracle := Bytes32.zero
    pendingSince := 0 }

theorem process_openPolicy {k : OpenPolicy.Keys} {args : OpenPolicy.Args}
    (h : process chain L ⟨now, signers, .openPolicy k args⟩ = .ok L') :
    ∃ p m, Opened chain L now signers k args p m ∧
      (L.write k.policy (.policy p)).write k.market (.market m) = L' := by
  simp only [process, OpenPolicy.load, openPolicyHandler, bind_eq_ok, pure_eq_ok, signer_eq_ok,
    require_eq_ok, loadMint_eq_ok, loadInit_eq_ok, exists_const, Bool.and_eq_true,
    decide_eq_true_eq, Prod.exists, Prod.mk.injEq] at h
  obtain ⟨_, ⟨hsig, ⟨_, mint⟩, ⟨-, -, rfl⟩, ⟨_, pb⟩, ⟨hpol, hpv, rfl⟩, ⟨_, mb⟩,
    ⟨hmar, ⟨hmv, hne⟩, rfl⟩, rfl⟩, p, m, ⟨-, hceil, -, hrate, -, rfl, rfl⟩, rfl⟩ := h
  exact ⟨_, _, {
    signed := hsig
    policy := hpol
    policyVacant := hpv
    market := hmar
    marketVacant := hmv
    distinct := hne
    rate := hrate
    ceiling := hceil
    opened := rfl
    input := rfl }, rfl⟩

/-! ## The oracle -/

/-- A report of the oracle, which takes the market input `m` to `m'`. -/
structure Reported (L : Ledger Stored) (now : I64) (signers : List Pubkey) (k : ReportVolume.Keys)
    (eligibleVolume : U64) (m m' : MarketInput) : Prop where
  signed : k.oracle ∈ signers
  oracle : m.oracle = k.oracle
  market : L.program k.market = some (.market m)
  counted : m'.reportCount.val = m.reportCount.val + 1
  reported : m' = { m with eligibleVolume, updatedAt := now, reportCount := m'.reportCount }

theorem process_reportVolume {k : ReportVolume.Keys} {eligibleVolume : U64}
    (h : process chain L ⟨now, signers, .reportVolume k eligibleVolume⟩ = .ok L') :
    ∃ m m', Reported L now signers k eligibleVolume m m' ∧
      L.write k.market (.market m') = L' := by
  simp only [process, ReportVolume.load, reportVolumeHandler, bind_eq_ok, pure_eq_ok, signer_eq_ok,
    loadAs_eq_ok, hasOne_eq_ok, checkSeeds_eq_ok, okOr_eq_ok, U64.checkedAdd_eq_some, exists_const,
    Stored.market?_eq_some, exists_eq_right] at h
  obtain ⟨_, ⟨hsig, ⟨_, m⟩, ⟨hm, rfl⟩, horacle, -, rfl⟩, _, ⟨n, hn, rfl⟩, rfl⟩ := h
  exact ⟨m, _, {
    signed := hsig
    oracle := horacle
    market := hm
    counted := hn.symm
    reported := rfl }, rfl⟩

/-- A proposal of the policy's authority to replace the oracle of `m`. -/
structure Proposed (L : Ledger Stored) (now : I64) (signers : List Pubkey) (k : ProposeOracle.Keys)
    (newOracle : Pubkey) (m m' : MarketInput) : Prop where
  signed : k.policyAuthority ∈ signers
  policy : ∃ p, L.program k.policy = some (.policy p) ∧ p.authority = k.policyAuthority ∧
    p.policyHash = m.policyHash
  market : L.program k.market = some (.market m)
  named : newOracle ≠ Bytes32.zero
  proposed : m' = { m with pendingOracle := newOracle, pendingSince := now }

theorem process_proposeOracle {k : ProposeOracle.Keys} {newOracle : Pubkey}
    (h : process chain L ⟨now, signers, .proposeOracle k newOracle⟩ = .ok L') :
    ∃ m m', Proposed L now signers k newOracle m m' ∧ L.write k.market (.market m') = L' := by
  simp only [process, ProposeOracle.load, proposeOracleHandler, bind_eq_ok, pure_eq_ok,
    signer_eq_ok, loadAs_eq_ok, checkSeeds_eq_ok, require_eq_ok, okOr_eq_ok, exists_const,
    Stored.market?_eq_some, Stored.policy?_eq_some, exists_eq_right] at h
  obtain ⟨_, ⟨hsig, ⟨_, p⟩, ⟨hp, rfl⟩, ⟨_, m⟩, ⟨hm, rfl⟩, -, hauth, -, hhash, rfl⟩, _,
    ⟨hnamed, _, -, rfl⟩, rfl⟩ := h
  exact ⟨m, _, {
    signed := hsig
    policy := ⟨p, hp, hauth, hhash.symm⟩
    market := hm
    named := hnamed
    proposed := rfl }, rfl⟩

/-- The proposed oracle of `m` takes over. -/
structure Rotated (L : Ledger Stored) (now : I64) (key : Pubkey) (m m' : MarketInput) : Prop where
  market : L.program key = some (.market m)
  pending : m.pendingOracle ≠ Bytes32.zero
  notice : ORACLE_ROTATION_NOTICE_SECONDS ≤ now.val - m.pendingSince.val
  rotated : m' = { m with
    oracle := m.pendingOracle, pendingOracle := Bytes32.zero, pendingSince := 0 }

theorem process_executeOracleRotation {key : Pubkey}
    (h : process chain L ⟨now, signers, .executeOracleRotation key⟩ = .ok L') :
    ∃ m m', Rotated L now key m m' ∧ L.write key (.market m') = L' := by
  simp only [process, ExecuteOracleRotation.load, executeOracleRotationHandler, bind_eq_ok,
    pure_eq_ok, loadAs_eq_ok, checkSeeds_eq_ok, require_eq_ok, okOr_eq_ok, exists_const,
    I64.checkedSub_eq_some, Stored.market?_eq_some, exists_eq_right, ge_iff_le] at h
  obtain ⟨_, ⟨⟨_, m⟩, ⟨hm, rfl⟩, -, rfl⟩, _, ⟨hpending, waited, hwaited, hnotice, rfl⟩, rfl⟩ := h
  exact ⟨m, _, {
    market := hm
    pending := hpending
    notice := hwaited ▸ hnotice
    rotated := rfl }, rfl⟩

/-! ## Deposit -/

/-- An accepted deposit, which creates `v` under the policy `p`. -/
structure Deposited (chain : Chain) (L : Ledger Stored) (now : I64) (signers : List Pubkey)
    (k : Deposit.Keys) (args : Deposit.Args) (p p' : PolicyWindow) (v : CovenantVault)
    (tokens : Tokens) : Prop where
  depositor : k.depositor ∈ signers
  policyAuthority : k.policyAuthority ∈ signers
  policy : L.program k.policy = some (.policy p)
  authority : p.authority = k.policyAuthority
  policyMint : p.mint = k.mint
  counted : ∃ vaultCount, p' = { p with vaultCount }
  vault : chain.findProgramAddress (vaultSeeds p.policyHash args.kind k.authority k.mint) ID =
    (k.vault, v.stateBump)
  vacant : L.vacant k.vault
  token : chain.findProgramAddress (tokenSeeds k.vault) ID = (k.vaultToken, v.tokenVaultBump)
  tokenVacant : L.vacant k.vaultToken
  positive : 0 < args.amount
  rate : 1 ≤ args.annualReleaseBps ∧ args.annualReleaseBps ≤ MAX_ANNUAL_RELEASE_BPS
  cliff : args.kind = .Beneficiary → MIN_CLIFF_SECONDS ≤ args.cliffSeconds.val
  created : ∃ (cap : U64) (cliffEndTs : I64),
    cap.val = monthlyShare args.amount.val args.annualReleaseBps.val ∧ 0 < cap ∧
      now.val + args.cliffSeconds.val = cliffEndTs.val ∧ v = {
        kind := args.kind, depositor := k.depositor, authority := k.authority, mint := k.mint
        policyHash := p.policyHash, depositedAmount := args.amount, monthlyCap := cap
        releasedTotal := 0, releasedThisPeriod := 0, currentPeriodIndex := 0, genesisTs := now
        cliffEndTs, annualReleaseBps := args.annualReleaseBps, mintDecimals := v.mintDecimals
        stateBump := v.stateBump, tokenVaultBump := v.tokenVaultBump }
  transfer : chain.transferChecked (L.createToken k.vaultToken k.mint k.vault).tokens {
    source := k.depositorToken, mint := k.mint, destination := k.vaultToken
    authority := k.depositor, amount := args.amount.val, decimals := v.mintDecimals } = some tokens

theorem checkCliff_eq_ok {kind : VaultKind} {cliffSeconds : I64} {u : Unit}
    (h : kind.checkCliff cliffSeconds = .ok u) :
    kind = .Beneficiary → MIN_CLIFF_SECONDS ≤ cliffSeconds.val := by
  rintro rfl
  exact require_eq_ok.mp h

theorem process_deposit {k : Deposit.Keys} {args : Deposit.Args}
    (h : process chain L ⟨now, signers, .deposit k args⟩ = .ok L') :
    ∃ p p' v tokens, Deposited chain L now signers k args p p' v tokens ∧
      (({ L with tokens } : Ledger Stored).write k.policy (.policy p')).write k.vault (.vault v) =
        L' := by
  simp only [process, Deposit.load, depositHandler, countVault, bind_eq_ok, pure_eq_ok,
    signer_eq_ok, loadMint_eq_ok, loadToken_eq_ok, tokenAuthority_eq_ok, loadAs_eq_ok,
    hasOne_eq_ok, checkSeeds_eq_ok, loadInit_eq_ok, require_eq_ok, okOr_eq_ok, exists_const,
    monthlyCap_eq_ok, I64.checkedAdd_eq_some, Stored.policy?_eq_some, exists_eq_right, Prod.exists,
    Prod.mk.injEq, Bool.and_eq_true, decide_eq_true_eq, Ledger.transfer_eq_ok] at h
  obtain ⟨_, ⟨hd, hpa, ⟨_, m⟩, ⟨hm, hi, rfl⟩, ⟨_, a⟩, ⟨ha, hs, hmint, rfl⟩, ho, ⟨_, p⟩, ⟨hp, rfl⟩,
    hps, hpm, hauth, ⟨_, vb⟩, ⟨hvault, hvac, rfl⟩, ⟨_, tb⟩, ⟨htoken, ⟨htvac, hne⟩, rfl⟩, rfl⟩, v, t,
    ⟨hma, hfa, hpos, hrate, u, hcliff, cap, hcap, hcap₀, cliffEndTs, hend, rfl, rfl⟩, _,
    ⟨tokens, ht, rfl⟩, _, ⟨n, -, rfl⟩, rfl⟩ := h
  exact ⟨p, _, _, tokens, {
    depositor := hd
    policyAuthority := hpa
    policy := hp
    authority := hauth
    policyMint := hpm
    counted := ⟨n, rfl⟩
    vault := hvault
    vacant := hvac
    token := htoken
    tokenVacant := htvac
    positive := hpos
    rate := hrate
    cliff := checkCliff_eq_ok hcliff
    created := ⟨cap, cliffEndTs, hcap, hcap₀, hend, rfl⟩
    transfer := ht }, rfl⟩

/-! ## Approval -/

/-- An accepted approval, which creates `a` for the vault `v`. -/
structure Approved (chain : Chain) (L : Ledger Stored) (now : I64) (signers : List Pubkey)
    (k : Approve.Keys) (periodIndex approvedNeed : U64) (p : PolicyWindow) (v : CovenantVault)
    (a : Approval) : Prop where
  signed : k.approver ∈ signers
  vault : L.program k.vault = some (.vault v)
  kind : v.kind = .Purpose
  vaultSeeds : chain.createProgramAddress
    (vaultSeeds v.policyHash v.kind k.approver k.mint ++ [[v.stateBump]]) ID = some k.vault
  policy : L.program k.policy = some (.policy p)
  policySeeds : chain.createProgramAddress (policySeeds v.policyHash ++ [[p.bump]]) ID =
    some k.policy
  destination : ∃ t, L.tokens.account k.destination = some t ∧ t.owner ≠ k.approver
  approval : chain.findProgramAddress (approvalSeeds k.vault periodIndex) ID = (k.approval, a.bump)
  vacant : L.vacant k.approval
  genesis : p.genesisTs ≤ now
  later : periodOf p.genesisTs now < periodIndex.val
  approved : a = {
    vault := k.vault, approver := k.approver, destination := k.destination, periodIndex
    approvedNeed, consumed := 0, createdAt := now, bump := a.bump }

theorem process_approve {k : Approve.Keys} {periodIndex approvedNeed : U64}
    (h : process chain L ⟨now, signers, .approve k periodIndex approvedNeed⟩ = .ok L') :
    ∃ p v a, Approved chain L now signers k periodIndex approvedNeed p v a ∧
      L.write k.approval (.approval a) = L' := by
  simp only [process, Approve.load, approveHandler, bind_eq_ok, pure_eq_ok, signer_eq_ok,
    loadMint_eq_ok, loadToken_eq_ok, loadAs_eq_ok, hasOne_eq_ok, checkSeeds_eq_ok, loadInit_eq_ok,
    require_eq_ok, exists_const, periodIndex_eq_ok, Stored.vault?_eq_some, Stored.policy?_eq_some,
    exists_eq_right, gt_iff_lt] at h
  obtain ⟨_, ⟨hsig, _, -, ⟨_, v⟩, ⟨hv, rfl⟩, hvs, -, ⟨_, p⟩, ⟨hp, rfl⟩, hps, ⟨_, t⟩, ⟨ht, -, -, rfl⟩,
    ⟨_, ab⟩, ⟨happ, hvac, rfl⟩, rfl⟩, _, ⟨hkind, -, hpayee, current, ⟨hgen, -, hcur⟩, hlater, rfl⟩,
    rfl⟩ := h
  exact ⟨p, v, _, {
    signed := hsig
    vault := hv
    kind := hkind
    vaultSeeds := hvs
    policy := hp
    policySeeds := hps
    destination := ⟨t, ht, hpayee⟩
    approval := happ
    vacant := hvac
    genesis := hgen
    later := hcur ▸ hlater
    approved := rfl }, rfl⟩

/-! ## Release -/

/-- What has been released in the period, according to the policy. -/
def PolicyWindow.usedIn (p : PolicyWindow) (period : U64) : ℕ :=
  if p.currentPeriodIndex.val < period.val then 0 else p.releasedThisPeriod.val

/-- What has been released in the period, according to the vault. -/
def CovenantVault.usedIn (v : CovenantVault) (period : U64) : ℕ :=
  if v.currentPeriodIndex.val < period.val then 0 else v.releasedThisPeriod.val

/-- A release of `amount` passes the gate and takes the counters of `p` and `v` to those of `p'`
and `v'`. -/
structure Debited (gate : ReleaseGate) (now : I64) (period amount : U64) (p' : PolicyWindow)
    (v' : CovenantVault) : Prop where
  positive : 0 < amount.val
  window : ∃ capacity, windowCapacity (gate.policy.inputs gate.market now) = .ok capacity ∧
    p'.releasedThisPeriod ≤ capacity
  policy : p'.releasedThisPeriod.val = gate.policy.usedIn period + amount.val
  vault : v'.releasedThisPeriod.val = gate.vault.usedIn period + amount.val
  total : v'.releasedTotal.val = gate.vault.releasedTotal.val + amount.val
  cap : v'.releasedThisPeriod ≤ gate.vault.monthlyCap
  deposit : v'.releasedTotal ≤ gate.vault.depositedAmount
  rolledPolicy : p' = { gate.policy.roll period with releasedThisPeriod := p'.releasedThisPeriod }
  rolledVault : v' = { gate.vault.roll period with
    releasedThisPeriod := v'.releasedThisPeriod, releasedTotal := v'.releasedTotal }

@[simp] theorem roll_policy_used (p : PolicyWindow) (period : U64) :
    (p.roll period).releasedThisPeriod.val = p.usedIn period := by
  unfold PolicyWindow.roll PolicyWindow.usedIn
  simp only [gt_iff_lt, Fin.lt_def]
  split <;> rfl

@[simp] theorem roll_vault_used (v : CovenantVault) (period : U64) :
    (v.roll period).releasedThisPeriod.val = v.usedIn period := by
  unfold CovenantVault.roll CovenantVault.usedIn
  simp only [gt_iff_lt, Fin.lt_def]
  split <;> rfl

/-- What a vault is created with and never changes. -/
def CovenantVault.terms (v : CovenantVault) : CovenantVault :=
  { v with releasedTotal := 0, releasedThisPeriod := 0, currentPeriodIndex := 0 }

/-- What a policy is opened with and never changes. -/
def PolicyWindow.terms (p : PolicyWindow) : PolicyWindow :=
  { p with releasedThisPeriod := 0, currentPeriodIndex := 0, vaultCount := 0 }

@[simp] theorem roll_policy_terms (p : PolicyWindow) (period : U64) :
    (p.roll period).terms = p.terms := by
  unfold PolicyWindow.roll
  split <;> rfl

@[simp] theorem roll_vault_total (v : CovenantVault) (period : U64) :
    (v.roll period).releasedTotal = v.releasedTotal := by
  unfold CovenantVault.roll
  split <;> rfl

@[simp] theorem roll_vault_terms (v : CovenantVault) (period : U64) :
    (v.roll period).terms = v.terms := by
  unfold CovenantVault.roll
  split <;> rfl

theorem applyRelease_eq_ok {gate : ReleaseGate} {period amount : U64} {p' : PolicyWindow}
    {v' : CovenantVault} (h : applyRelease gate now period amount = .ok (p', v')) :
    Debited gate now period amount p' v' := by
  simp only [applyRelease, bind_eq_ok, require_eq_ok, okOr_eq_ok, pure_eq_ok, exists_const,
    U64.checkedAdd_eq_some, Prod.mk.injEq, gt_iff_lt, roll_policy_used, roll_vault_used,
    roll_vault_total] at h
  obtain ⟨hpos, capacity, hcap, used, hused, hle, total, htotal, hdep, window, hwindow, hfits, rfl,
    rfl⟩ := h
  have hterms := roll_vault_terms gate.vault period
  exact {
    positive := hpos
    window := ⟨capacity, hcap, hfits⟩
    policy := hwindow.symm
    vault := hused.symm
    total := htotal.symm
    cap := hle.trans_eq (congrArg CovenantVault.monthlyCap hterms :)
    deposit := hdep.trans_eq (congrArg CovenantVault.depositedAmount hterms :)
    rolledPolicy := rfl
    rolledVault := rfl }

/-- The accounts that a release has loaded. -/
structure Release.Loaded (chain : Chain) (L : Ledger Stored) (signers : List Pubkey)
    (k : Release.Keys) (ctx : Release) : Prop where
  signed : k.authority ∈ signers
  vault : L.program k.vault = some (.vault ctx.vault.data)
  vaultMint : ctx.vault.data.mint = k.mint
  policy : L.program k.policy = some (.policy ctx.policy.data)
  policySeeds : chain.createProgramAddress
    (policySeeds ctx.vault.data.policyHash ++ [[ctx.policy.data.bump]]) ID = some k.policy
  market : L.program k.market = some (.market ctx.market.data)
  marketSeeds : chain.createProgramAddress
    (marketSeeds ctx.vault.data.policyHash ++ [[ctx.market.data.bump]]) ID = some k.market
  source : ∃ a, L.tokens.account k.vaultToken = some a ∧ a.mint = k.mint ∧ a.owner = k.vault
  sourceSeeds : chain.createProgramAddress
    (tokenSeeds k.vault ++ [[ctx.vault.data.tokenVaultBump]]) ID = some k.vaultToken
  destination : L.tokens.account k.destination = some ctx.destination.data ∧
    ctx.destination.data.mint = k.mint ∧ ctx.destination.key = k.destination
  authority : ctx.authority = k.authority
  payout : ∀ amount, ctx.payout amount = {
    source := k.vaultToken, mint := k.mint, destination := k.destination, authority := k.vault
    amount := amount.val, decimals := ctx.vault.data.mintDecimals }

theorem Release.load_eq_ok {k : Release.Keys} {ctx : Release}
    (h : Release.load chain L signers k = .ok ctx) : Release.Loaded chain L signers k ctx := by
  simp only [Release.load, bind_eq_ok, pure_eq_ok, signer_eq_ok, loadMint_eq_ok, loadToken_eq_ok,
    tokenAuthority_eq_ok, loadAs_eq_ok, hasOne_eq_ok, checkSeeds_eq_ok, exists_const,
    Stored.policy?_eq_some, Stored.market?_eq_some, Stored.vault?_eq_some, exists_eq_right] at h
  obtain ⟨hsig, ⟨_, m⟩, ⟨-, -, rfl⟩, ⟨_, v⟩, ⟨hv, rfl⟩, -, hvm, ⟨_, p⟩, ⟨hp, rfl⟩, hps, ⟨_, mk⟩,
    ⟨hmk, rfl⟩, hms, ⟨_, s⟩, ⟨hs, -, hsm, rfl⟩, hss, hso, ⟨_, d⟩, ⟨hd, -, hdm, rfl⟩, rfl⟩ := h
  exact {
    signed := hsig
    vault := hv
    vaultMint := hvm
    policy := hp
    policySeeds := hps
    market := hmk
    marketSeeds := hms
    source := ⟨s, hs, hsm, hso⟩
    sourceSeeds := hss
    destination := ⟨hd, hdm, rfl⟩
    authority := rfl
    payout := fun _ ↦ rfl }

/-- The gate that the loaded accounts are. -/
def Release.gate (ctx : Release) : ReleaseGate := ⟨ctx.policy.data, ctx.vault.data, ctx.market.data⟩

/-- An accepted release of `amount`, before the counters. -/
structure Released (chain : Chain) (L : Ledger Stored) (now : I64) (signers : List Pubkey)
    (k : Release.Keys) (amount : U64) (ctx : Release) (tokens : Tokens) : Prop
    extends Release.Loaded chain L signers k ctx where
  payee : (ctx.vault.data.kind = .Beneficiary → ctx.destination.data.owner = k.authority) ∧
    (ctx.vault.data.kind = .Purpose → ctx.destination.data.owner ≠ k.authority)
  cliff : ctx.vault.data.kind = .Beneficiary → ctx.vault.data.cliffEndTs ≤ now
  genesis : ctx.policy.data.genesisTs ≤ now
  transfer : chain.transferChecked L.tokens {
    source := k.vaultToken, mint := k.mint, destination := k.destination, authority := k.vault
    amount := amount.val, decimals := ctx.vault.data.mintDecimals } = some tokens

/-- A purpose release of `amount` takes the approval `a` to `a'`. -/
structure Consumed (now : I64) (vault destination : Pubkey) (period amount : U64)
    (a a' : Approval) : Prop where
  vault : a.vault = vault
  destination : a.destination = destination
  period : a.periodIndex = period
  notice : MIN_NOTICE_SECONDS ≤ now.val - a.createdAt.val
  need : a'.consumed ≤ a.approvedNeed
  consumed : a'.consumed.val = a.consumed.val + amount.val
  kept : a' = { a with consumed := a'.consumed }

theorem process_releaseBeneficiary {k : Release.Keys} {amount : U64}
    (h : process chain L ⟨now, signers, .releaseBeneficiary k amount⟩ = .ok L') :
    ∃ ctx period p' v' tokens, Released chain L now signers k amount ctx tokens ∧
      ctx.vault.data.kind = .Beneficiary ∧ period.val = periodOf ctx.policy.data.genesisTs now ∧
      Debited ctx.gate now period amount p' v' ∧
      (({ L with tokens } : Ledger Stored).write k.policy (.policy p')).write k.vault (.vault v') =
        L' := by
  simp only [process, ReleaseBeneficiary.load, releaseBeneficiaryHandler, bind_eq_ok, pure_eq_ok,
    tokenAuthority_eq_ok, require_eq_ok, exists_const, periodIndex_eq_ok, Prod.exists,
    Ledger.transfer_eq_ok] at h
  obtain ⟨_, ⟨ctx, hload, hown, rfl⟩, p', v', ⟨hkind, hcliff, period, ⟨hgen, -, hper⟩, hgate⟩, _,
    ⟨tokens, ht, rfl⟩, rfl⟩ := h
  have hloaded := Release.load_eq_ok hload
  rw [hloaded.payout] at ht
  exact ⟨ctx, period, p', v', tokens, {
    toLoaded := hloaded
    payee := ⟨fun _ ↦ hown, fun hpurpose ↦ absurd (hkind.symm.trans hpurpose) (by decide)⟩
    cliff := fun _ ↦ hcliff
    genesis := hgen
    transfer := ht }, hkind, hper, applyRelease_eq_ok hgate, rfl⟩

theorem process_releasePurpose {k : Release.Keys} {key : Pubkey} {amount : U64}
    (h : process chain L ⟨now, signers, .releasePurpose k key amount⟩ = .ok L') :
    ∃ ctx period p' v' a a' tokens, Released chain L now signers k amount ctx tokens ∧
      ctx.vault.data.kind = .Purpose ∧ period.val = periodOf ctx.policy.data.genesisTs now ∧
      Debited ctx.gate now period amount p' v' ∧ L.program key = some (.approval a) ∧
      a.approver = k.authority ∧ Consumed now k.vault k.destination period amount a a' ∧
      ((({ L with tokens } : Ledger Stored).write k.policy (.policy p')).write k.vault
        (.vault v')).write key (.approval a') = L' := by
  simp only [process, ReleasePurpose.load, releasePurposeHandler, bind_eq_ok, pure_eq_ok,
    loadAs_eq_ok, hasOne_eq_ok, checkSeeds_eq_ok, require_eq_ok, okOr_eq_ok, exists_const,
    periodIndex_eq_ok, I64.checkedSub_eq_some, U64.checkedAdd_eq_some, Stored.approval?_eq_some,
    exists_eq_right, Prod.exists, Prod.mk.injEq, Ledger.transfer_eq_ok, ge_iff_le] at h
  obtain ⟨_, _, ⟨ctx, hload, ⟨_, a⟩, ⟨ha, rfl⟩, -, hav, haa, rfl, rfl⟩, p', v', a', ⟨hkind, hdest,
    hpayee, period, ⟨hgen, -, hper⟩, haper, notice, hnotice, hn, used, hused, hneed, _, _, hgate,
    rfl, rfl, rfl⟩, _, ⟨tokens, ht, rfl⟩, rfl⟩ := h
  have hloaded := Release.load_eq_ok hload
  rw [hloaded.payout] at ht
  rw [hloaded.authority] at hpayee
  exact ⟨ctx, period, _, _, a, _, tokens, {
    toLoaded := hloaded
    payee := ⟨fun hben ↦ absurd (hkind.symm.trans hben) (by decide), fun _ ↦ hpayee⟩
    cliff := fun hben ↦ absurd (hkind.symm.trans hben) (by decide)
    genesis := hgen
    transfer := ht }, hkind, hper, applyRelease_eq_ok hgate, ha, haa, {
    vault := hav
    destination := hdest.trans hloaded.destination.2.2
    period := haper
    notice := hnotice ▸ hn
    need := hneed
    consumed := hused.symm
    kept := rfl }, rfl⟩

end FundingVaults.PurposeVault
