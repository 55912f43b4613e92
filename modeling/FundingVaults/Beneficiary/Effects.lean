import FundingVaults.Beneficiary.Program

/-!
# What an accepted instruction does

`Deposited` and `Released` list what an accepted deposit and an accepted release found and what
they commit.  Both are exact: a transaction is accepted if and only if its list holds.
-/

namespace FundingVaults.Beneficiary

open Anchor

variable {chain : Chain} {L L' : Ledger BeneficiaryVault} {now : I64} {signers : List Pubkey}
  {amount : U64} {v v' : BeneficiaryVault} {tokens : Tokens}

/-- The address of the token account that belongs to the state at `key`. -/
def vaultToken (chain : Chain) (key : Pubkey) : Pubkey :=
  (chain.findProgramAddress (tokenSeeds key) ID).1

/-! ## Deposits -/

/-- An accepted deposit of `amount`, which creates `v`. -/
structure Deposited (chain : Chain) (L : Ledger BeneficiaryVault) (now : I64)
    (signers : List Pubkey) (k : Deposit.Keys) (amount : U64) (bps : U16) (cliffSeconds : I64)
    (policyHash : Bytes32) (v : BeneficiaryVault) (tokens : Tokens) : Prop where
  depositor : k.depositor ∈ signers
  beneficiary : k.beneficiary ∈ signers
  mint : ∃ m, L.tokens.mint k.mint = some m ∧ m.isInitialized ∧ m.mintAuthority = none ∧
    m.freezeAuthority = none ∧ m.decimals = v.mintDecimals
  source : ∃ a, L.tokens.account k.depositorToken = some a ∧ a.state ≠ .uninitialized ∧
    a.mint = k.mint ∧ a.owner = k.depositor
  state : chain.findProgramAddress (stateSeeds k.beneficiary k.mint policyHash) ID =
    (k.vaultState, v.stateBump)
  stateVacant : L.vacant k.vaultState
  token : chain.findProgramAddress (tokenSeeds k.vaultState) ID = (k.vaultToken, v.tokenVaultBump)
  tokenVacant : L.vacant k.vaultToken
  distinct : k.vaultToken ≠ k.vaultState
  positive : 0 < amount.val
  rate : 1 ≤ bps.val ∧ bps.val ≤ 500
  cliff : MIN_CLIFF_SECONDS ≤ cliffSeconds.val
  hash : policyHash ≠ Bytes32.zero
  created : ∃ (cap : U64) (cliffEndTs : I64), cap.val = monthlyShare amount.val bps.val ∧
    0 < cap ∧ now.val + cliffSeconds.val = cliffEndTs.val ∧ v = {
      depositor := k.depositor, beneficiary := k.beneficiary, mint := k.mint, policyHash
      depositedAmount := amount, monthlyCap := cap, releasedTotal := 0, releasedThisPeriod := 0
      genesisTs := now, cliffEndTs, currentPeriodIndex := 0, annualReleaseBps := bps
      mintDecimals := v.mintDecimals, stateBump := v.stateBump
      tokenVaultBump := v.tokenVaultBump }
  transfer : chain.transferChecked (L.createToken k.vaultToken k.mint k.vaultState).tokens {
    source := k.depositorToken, mint := k.mint, destination := k.vaultToken
    authority := k.depositor, amount := amount.val, decimals := v.mintDecimals } = some tokens

theorem process_deposit {k : Deposit.Keys} {bps : U16} {cliffSeconds : I64} {policyHash : Bytes32} :
    process chain L ⟨now, signers, .deposit k amount bps cliffSeconds policyHash⟩ = .ok L' ↔
      ∃ v tokens, Deposited chain L now signers k amount bps cliffSeconds policyHash v tokens ∧
        ({ L with tokens } : Ledger BeneficiaryVault).write k.vaultState v = L' := by
  simp only [process, Deposit.load, bind_eq_ok, pure_eq_ok, signer_eq_ok, loadMint_eq_ok,
    loadToken_eq_ok, tokenAuthority_eq_ok, loadInit_eq_ok, depositHandler_eq_ok, Prod.exists,
    Ledger.transfer_eq_ok, exists_const, Prod.mk.injEq, Bool.and_eq_true, decide_eq_true_eq]
  constructor
  · rintro ⟨_, ⟨hd, hb, ⟨_, m⟩, ⟨hm, hi, rfl⟩, ⟨_, a⟩, ⟨ha, hs, hmint, rfl⟩, ho, ⟨_, sb⟩,
      ⟨hstate, hvac, rfl⟩, ⟨_, tb⟩, ⟨htoken, ⟨htvac, hne⟩, rfl⟩, rfl⟩, v, t,
      ⟨hma, hfa, hpos, hrate, hcliff, hhash, cap, hcap, hcap₀, cliffEndTs, hend, rfl, rfl⟩, _,
      ⟨tokens, ht, rfl⟩, rfl⟩
    exact ⟨_, tokens, {
      depositor := hd
      beneficiary := hb
      mint := ⟨m, hm, hi, hma, hfa, rfl⟩
      source := ⟨a, ha, hs, hmint, ho⟩
      state := hstate
      stateVacant := hvac
      token := htoken
      tokenVacant := htvac
      distinct := hne
      positive := hpos
      rate := hrate
      cliff := hcliff
      hash := hhash
      created := ⟨cap, cliffEndTs, hcap, hcap₀, hend, rfl⟩
      transfer := ht }, rfl⟩
  · rintro ⟨v, tokens, h, rfl⟩
    obtain ⟨m, hm, hi, hma, hfa, hdec⟩ := h.mint
    obtain ⟨a, ha, hs, hmint, ho⟩ := h.source
    obtain ⟨cap, cliffEndTs, hcap, hcap₀, hend, hv⟩ := h.created
    have htransfer := h.transfer
    rw [← hdec] at htransfer
    refine ⟨_, ⟨h.depositor, h.beneficiary, ⟨_, m⟩, ⟨hm, hi, rfl⟩, ⟨_, a⟩, ⟨ha, hs, hmint, rfl⟩, ho,
      ⟨_, _⟩, ⟨h.state, h.stateVacant, rfl⟩, ⟨_, _⟩, ⟨h.token, ⟨h.tokenVacant, h.distinct⟩, rfl⟩,
      rfl⟩, v, _, ⟨hma, hfa, h.positive, h.rate, h.cliff, h.hash, cap, hcap, hcap₀, cliffEndTs,
      hend, ?_, rfl⟩, _, ⟨tokens, htransfer, rfl⟩, rfl⟩
    exact (hv.trans (by rw [hdec])).symm

/-! ## Releases -/

/-- An accepted release of `amount`, which takes the state `v` to `v'`. -/
structure Released (chain : Chain) (L : Ledger BeneficiaryVault) (now : I64)
    (signers : List Pubkey) (k : Release.Keys) (amount : U64) (v v' : BeneficiaryVault)
    (tokens : Tokens) : Prop where
  signed : k.beneficiary ∈ signers
  mint : ∃ m, L.tokens.mint k.mint = some m ∧ m.isInitialized
  vault : L.program k.vaultState = some v
  beneficiary : v.beneficiary = k.beneficiary
  vaultMint : v.mint = k.mint
  seeds : chain.createProgramAddress
    (stateSeeds k.beneficiary k.mint v.policyHash ++ [[v.stateBump]]) ID = some k.vaultState
  source : ∃ a, L.tokens.account k.vaultToken = some a ∧ a.state ≠ .uninitialized ∧
    a.mint = k.mint ∧ a.owner = k.vaultState
  sourceSeeds : chain.createProgramAddress
    (tokenSeeds k.vaultState ++ [[v.tokenVaultBump]]) ID = some k.vaultToken
  destination : ∃ t, L.tokens.account k.beneficiaryToken = some t ∧ t.state ≠ .uninitialized ∧
    t.mint = k.mint ∧ t.owner = k.beneficiary
  positive : 0 < amount.val
  cliff : v.cliffEndTs ≤ now
  clock : now.val - v.cliffEndTs.val < 2 ^ 63
  counters : ∃ period used total : U64, period.val = periodOf v.cliffEndTs now ∧
    used.val = v.usedIn period + amount.val ∧ used ≤ v.monthlyCap ∧
    total.val = v.releasedTotal.val + amount.val ∧ total ≤ v.depositedAmount ∧
    { v.roll period with releasedThisPeriod := used, releasedTotal := total } = v'
  transfer : chain.transferChecked L.tokens {
    source := k.vaultToken, mint := k.mint, destination := k.beneficiaryToken
    authority := k.vaultState, amount := amount.val, decimals := v.mintDecimals } = some tokens

theorem process_release {k : Release.Keys} :
    process chain L ⟨now, signers, .release k amount⟩ = .ok L' ↔
      ∃ v v' tokens, Released chain L now signers k amount v v' tokens ∧
        ({ L with tokens } : Ledger BeneficiaryVault).write k.vaultState v' = L' := by
  simp only [process, Release.load, bind_eq_ok, pure_eq_ok, signer_eq_ok, loadMint_eq_ok,
    loadToken_eq_ok, tokenAuthority_eq_ok, loadAs_eq_ok, hasOne_eq_ok, checkSeeds_eq_ok,
    releaseHandler_eq_ok, Prod.exists, Ledger.transfer_eq_ok, exists_const]
  constructor
  · rintro ⟨_, ⟨hsig, ⟨_, m⟩, ⟨hm, hi, rfl⟩, ⟨_, v⟩, ⟨⟨_, hv, hv'⟩, rfl⟩, hb, hvm, hseeds, ⟨_, a⟩,
      ⟨ha, hs, hmint, rfl⟩, hsrc, ho, ⟨_, t⟩, ⟨ht, hts, htm, rfl⟩, hto, rfl⟩, v', tr,
      ⟨hpos, hcliff, hlt, hcounters⟩, _, ⟨tokens, htr, rfl⟩, rfl⟩
    obtain rfl := Option.some.inj hv'
    obtain ⟨period, used, total, hk, hused, hcap, htotal, hdep, rfl, rfl⟩ := hcounters
    exact ⟨_, _, tokens, {
      signed := hsig
      mint := ⟨m, hm, hi⟩
      vault := hv
      beneficiary := hb
      vaultMint := hvm
      seeds := hseeds
      source := ⟨a, ha, hs, hmint, ho⟩
      sourceSeeds := hsrc
      destination := ⟨t, ht, hts, htm, hto⟩
      positive := hpos
      cliff := hcliff
      clock := hlt
      counters := ⟨period, used, total, hk, hused, hcap, htotal, hdep, rfl⟩
      transfer := htr }, rfl⟩
  · rintro ⟨v, v', tokens, h, rfl⟩
    obtain ⟨m, hm, hi⟩ := h.mint
    obtain ⟨a, ha, hs, hmint, ho⟩ := h.source
    obtain ⟨t, ht, hts, htm, hto⟩ := h.destination
    obtain ⟨period, used, total, hk, hused, hcap, htotal, hdep, hv'⟩ := h.counters
    exact ⟨_, ⟨h.signed, ⟨_, m⟩, ⟨hm, hi, rfl⟩, ⟨_, v⟩, ⟨⟨v, h.vault, rfl⟩, rfl⟩, h.beneficiary,
      h.vaultMint, h.seeds, ⟨_, a⟩, ⟨ha, hs, hmint, rfl⟩, h.sourceSeeds, ho, ⟨_, t⟩,
      ⟨ht, hts, htm, rfl⟩, hto, rfl⟩, v', _, ⟨h.positive, h.cliff, h.clock, period, used, total, hk,
      hused, hcap, htotal, hdep, hv', rfl⟩, _, ⟨tokens, h.transfer, rfl⟩, rfl⟩

end FundingVaults.Beneficiary
