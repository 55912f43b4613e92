import FundingVaults.Beneficiary.Runs
import FundingVaults.Lib.Platform

/-!
# The schedule of a beneficiary vault

The main result: a vault is created once and keeps its terms; it releases nothing before its cliff
ends, at most its cap in every period and at most its deposit, to its beneficiary; its balance is
what was paid in less what was released; and a release within these bounds is accepted.
-/

namespace FundingVaults.Beneficiary

open Anchor

section Runs

variable {chain : Chain} {external : Ledger BeneficiaryVault → Tokens → Prop}
  {L L' : Ledger BeneficiaryVault} {now : I64} {signers : List Pubkey} {amount : U64}
  {v : BeneficiaryVault} {key : Pubkey} {tr : List (Event BeneficiaryVault Instruction)}

/-! ## The terms of a vault -/

/-- An accepted transaction keeps every vault and its terms. -/
theorem process_terms {tx : Tx Instruction} (h : process chain L tx = .ok L')
    (hv : L.program key = some v) : ∃ v', L'.program key = some v' ∧ v'.terms = v.terms := by
  obtain ⟨now, signers, instr⟩ := tx
  cases instr with
  | deposit k amount bps cliffSeconds policyHash =>
    obtain ⟨w, tokens, hdep, rfl⟩ := process_deposit.mp h
    have hne : key ≠ k.vaultState := by
      rintro rfl
      have hnone := (Ledger.vacant_iff.mp hdep.stateVacant).1
      simp [hv] at hnone
    exact ⟨v, by rw [Ledger.write_program_of_ne hne]; exact hv, rfl⟩
  | release k amount =>
    obtain ⟨w, w', tokens, hrel, rfl⟩ := process_release.mp h
    by_cases hkey : key = k.vaultState
    · subst hkey
      obtain rfl := Option.some.inj (hv.symm.trans hrel.vault)
      exact ⟨w', by simp, hrel.terms⟩
    · exact ⟨v, by rw [Ledger.write_program_of_ne hkey]; exact hv, rfl⟩

theorem run_terms (h : Run (program chain external) L tr L') (hv : L.program key = some v) :
    ∃ v', L'.program key = some v' ∧ v'.terms = v.terms := by
  induction h with
  | refl => exact ⟨v, hv, rfl⟩
  | accepted _ hp ih =>
    obtain ⟨w, hw, ht⟩ := ih
    obtain ⟨w', hw', ht'⟩ := process_terms hp hw
    exact ⟨w', hw', ht'.trans ht⟩
  | rejected _ _ ih => exact ih
  | external _ _ ih => exact ih

/-! ## Acceptance -/

/-- The accounts of a release into the token account at `destination`. -/
def Release.Keys.at (chain : Chain) (key : Pubkey) (v : BeneficiaryVault) (destination : Pubkey) :
    Release.Keys where
  beneficiary := v.beneficiary
  mint := v.mint
  vaultState := key
  vaultToken := Beneficiary.vaultToken chain key
  beneficiaryToken := destination

/-- A release is accepted if and only if its amount fits the period and the deposit. -/
theorem Kept.release_iff {t : TokenAccount} {destination : Pubkey} (h : Kept chain tr L key v)
    (hd : chain.transferChecked = Tokens.transferChecked)
    (hcanonical : Canonical chain ID key v) (hv : L.program key = some v)
    (hclock : ∀ t ∈ times tr, t ≤ now) (hspan : now.val - v.cliffEndTs.val < 2 ^ 63)
    (hcliff : v.cliffEndTs ≤ now) (hsigned : v.beneficiary ∈ signers)
    (ht : L.tokens.account destination = some t) (hstate : t.state = .initialized)
    (hmint : t.mint = v.mint) (howner : t.owner = v.beneficiary) :
    (∃ L', process chain L ⟨now, signers, .release (.at chain key v destination) amount⟩ = .ok L') ↔
      0 < amount.val ∧ amount.val ≤ min
        (v.monthlyCap.val -
          spentIn v.periodOf Payment.weight (FundingVaults.periodOf v.cliffEndTs now)
            (payments key tr))
        (v.depositedAmount.val - spent Payment.weight (payments key tr)) := by
  obtain ⟨pre, e, post, -, hborn, -, a, ha, hown, hbal⟩ := h.born
  obtain ⟨m, hm, hi, -, hdec⟩ := h.mint
  have hcur : v.currentPeriodIndex.val ≤ FundingVaults.periodOf v.cliffEndTs now := by
    rcases h.current with h₀ | ⟨x, hx, hcur⟩
    · rw [h₀]
      exact Nat.zero_le _
    · rw [← hcur]
      exact periodOf_mono (hclock _ (now_mem_times hx))
  have hroll := h.counts.rolled hcur
  have htotal := h.total
  have hspent : spent Payment.weight (payments key tr) ≤ v.depositedAmount.val := htotal ▸ h.deposit
  constructor
  · rintro ⟨L', hL'⟩
    obtain ⟨w, w', tokens, hrel, -⟩ := process_release.mp hL'
    obtain rfl := Option.some.inj (hv.symm.trans hrel.vault)
    obtain ⟨period, used, total, hk, hused, hcap, hsum, hdep, -⟩ := hrel.counters
    have hpos := hrel.positive
    rw [BeneficiaryVault.usedIn, hk, hroll] at hused
    rw [Fin.le_def] at hcap hdep
    exact ⟨hpos, by omega⟩
  · rintro ⟨hpos, hle⟩
    have hle' : amount.val ≤ a.amount := by omega
    obtain ⟨period, hk⟩ : ∃ period : U64, FundingVaults.periodOf v.cliffEndTs now = period.val := by
      refine U64.exists_val_eq ?_
      rw [I64.le_iff] at hcliff
      unfold FundingVaults.periodOf periodSeconds
      omega
    have hcap := v.monthlyCap.isLt
    have hdep := v.depositedAmount.isLt
    rw [hk] at hle hroll
    obtain ⟨used, hused⟩ := U64.exists_val_eq (x := v.usedIn period + amount.val) (by
      rw [BeneficiaryVault.usedIn, hroll]
      omega)
    obtain ⟨total, hsum⟩ := U64.exists_val_eq (x := v.releasedTotal.val + amount.val) (by omega)
    have hsource := chain.create_find (tokenSeeds key) ID
    rw [hborn.token] at hsource
    obtain ⟨tokens, htokens⟩ : ∃ tokens, chain.transferChecked L.tokens {
        source := vaultToken chain key, mint := v.mint, destination, authority := key
        amount := amount.val, decimals := v.mintDecimals } = some tokens := by
      rw [hd]
      exact ⟨_, (Tokens.transferChecked_of_soleOwner ha hown).mpr
        ⟨t, m, ht, hstate, hmint, hm, hi, hdec, hle', rfl⟩⟩
    refine ⟨_, process_release.mpr ⟨v, _, tokens, {
      signed := hsigned
      mint := ⟨m, hm, hi⟩
      vault := hv
      beneficiary := rfl
      vaultMint := rfl
      seeds := hcanonical.create
      source := ⟨a, ha, ?_, hown.mint, hown.owner⟩
      sourceSeeds := hsource
      destination := ⟨t, ht, ?_, hmint, howner⟩
      positive := hpos
      cliff := hcliff
      clock := hspan
      counters := ⟨period, used, total, hk.symm, hused.symm, ?_, hsum.symm, ?_, rfl⟩
      transfer := htokens }, rfl⟩⟩
    · rw [hown.state]
      decide
    · rw [hstate]
      decide
    · rw [BeneficiaryVault.usedIn, hroll] at hused
      rw [Fin.le_def]
      omega
    · rw [Fin.le_def]
      omega

/-! ## The schedule -/

/-- What a run makes of a vault. -/
structure Schedule (chain : Chain) (external : Ledger BeneficiaryVault → Tokens → Prop)
    (tr : List (Event BeneficiaryVault Instruction)) (L : Ledger BeneficiaryVault) (key : Pubkey)
    (v : BeneficiaryVault) : Prop where
  /-- One deposit created the vault; since then its token account holds what was paid in less what
  was released. -/
  created : ∃ pre e post, tr = pre ++ e :: post ∧ Born chain key v e ∧
    (∀ x ∈ pre ++ post, ¬ Creates key x) ∧
    balance L.tokens (vaultToken chain key) + v.releasedTotal.val =
      v.depositedAmount.val + donations (vaultToken chain key) post
  permanent : ∀ tr' L', Run (program chain external) L tr' L' →
    ∃ v', L'.program key = some v' ∧ v'.terms = v.terms
  cliff : ∀ x ∈ payments key tr, v.cliffEndTs ≤ x.now
  capped : ∀ k, spentIn v.periodOf Payment.weight k (payments key tr) ≤
    monthlyShare v.depositedAmount.val v.annualReleaseBps.val
  period : v.releasedThisPeriod.val =
    spentIn v.periodOf Payment.weight v.currentPeriodIndex.val (payments key tr)
  total : v.releasedTotal.val = spent Payment.weight (payments key tr)
  deposit : spent Payment.weight (payments key tr) ≤ v.depositedAmount.val
  recipient : ∀ x ∈ payments key tr, x.recipient = some v.beneficiary
  /-- After the cliff, what the beneficiary may take is what the current period and the deposit
  leave, whatever earlier periods left unused. -/
  available : ∀ (now : I64) (signers : List Pubkey) (destination : Pubkey) (t : TokenAccount)
    (amount : U64), 0 ≤ now → (∀ t ∈ times tr, t ≤ now) → v.cliffEndTs ≤ now →
    v.beneficiary ∈ signers → L.tokens.account destination = some t → t.state = .initialized →
    t.mint = v.mint → t.owner = v.beneficiary →
    ((∃ L', process chain L ⟨now, signers, .release (.at chain key v destination) amount⟩ = .ok L') ↔
      0 < amount.val ∧ amount.val ≤ min
        (monthlyShare v.depositedAmount.val v.annualReleaseBps.val -
          spentIn v.periodOf Payment.weight (FundingVaults.periodOf v.cliffEndTs now)
            (payments key tr))
        (v.depositedAmount.val - spent Payment.weight (payments key tr)))

/-- The cap and the end of the cliff of a vault follow from its deposit. -/
theorem Born.cap_cliff {e : Event BeneficiaryVault Instruction} (h : Born chain key v e) :
    v.monthlyCap.val = monthlyShare v.depositedAmount.val v.annualReleaseBps.val ∧
      ∃ t ∈ times [e], t ≤ v.cliffEndTs := by
  obtain ⟨before, now, signers, k, amount, bps, cliffSeconds, policyHash, tokens, after, rfl, rfl,
    h⟩ := h
  have hcliff := h.cliff
  obtain ⟨cap, cliffEndTs, hcap, -, hend, hv⟩ := h.created
  have hcap' : v.monthlyCap = cap := (congrArg BeneficiaryVault.monthlyCap hv :)
  have hdep' : v.depositedAmount = amount := (congrArg BeneficiaryVault.depositedAmount hv :)
  have hbps' : v.annualReleaseBps = bps := (congrArg BeneficiaryVault.annualReleaseBps hv :)
  have hend' : v.cliffEndTs = cliffEndTs := (congrArg BeneficiaryVault.cliffEndTs hv :)
  refine ⟨by rw [hcap', hdep', hbps', hcap], now, by simp, ?_⟩
  rw [hend', I64.le_iff, ← hend]
  unfold MIN_CLIFF_SECONDS at hcliff
  omega

theorem schedule (hd : Lawful (program chain external) ID)
    (h : Reachable (program chain external) tr L) (hs : Unsigned chain ID tr) (hc : Clocked tr)
    (hv : L.program key = some v) : Schedule chain external tr L key v := by
  have hacc := accounted hd h hs hc
  have hkept := hacc.kept key v hv
  obtain ⟨pre, e, post, htr, hborn, honce, a, ha, -, hbal⟩ := hkept.born
  obtain ⟨hcap, t₀, ht₀, hcliff₀⟩ := hborn.cap_cliff
  refine {
    created := ⟨pre, e, post, htr, hborn, honce, by simpa [balance, ha] using hbal⟩
    permanent := fun tr' L' hrun ↦ run_terms hrun hv
    cliff := hkept.cliff
    capped := fun k ↦ hcap ▸ hkept.capped k
    period := hkept.counts.used
    total := hkept.total
    deposit := hkept.total ▸ hkept.deposit
    recipient := hkept.recipient
    available := fun now signers destination t amount hnow hclock hcliff hsigned ht hstate hmint
      howner ↦ ?_ }
  rw [← hcap]
  refine hkept.release_iff hd.transfer (hacc.sound.canonical hv) hv hclock ?_ hcliff hsigned ht
    hstate hmint howner
  -- The deposit was not before time zero, so neither is the end of the cliff.
  have hmem : t₀ ∈ times tr := by
    rw [htr, List.append_cons, times_append, times_append]
    exact List.mem_append_left _ (List.mem_append_right _ ht₀)
  have hnonneg := hc.nonneg t₀ hmem
  rw [I64.le_iff] at hnonneg hcliff₀
  have := now.lt
  simp only [I64.val_zero] at hnonneg
  omega

end Runs

/-! ## A vault -/

namespace Sample

def depositor : Pubkey := repeated 1
def mint : Pubkey := repeated 3
def beneficiary : Pubkey := repeated 32
/-- The token accounts of the depositor and of the beneficiary. -/
def source : Pubkey := repeated 29
def destination : Pubkey := repeated 34
def policyHash : Bytes32 := repeated 66

/-- The addresses of the vault in a mint and of its token account. -/
def stateOf (mint : Pubkey) : Pubkey :=
  if mint = NATIVE_MINT then
    spelled 0xc77f9ec25508faf8a5e949fccaba610e32d40248d1625f70be0c6c149af9d3a9
  else spelled 0x0d911b852ed99a6f0c6058c51d0b4eaa8de1b3492337f5e770f0aec9c8f61cc2

def tokenOf (mint : Pubkey) : Pubkey :=
  if mint = NATIVE_MINT then
    spelled 0x97f620ccba17a5ea23166d6417021980dba34b61c5d74c876d0f556c14da8592
  else spelled 0x3b58e825ed53f91584ebb7d75208f537a089fa6a051ee1051d223162ffa5981d

def vaultState : Pubkey := stateOf mint

def vaultToken : Pubkey := tokenOf mint

/-- The searches for them. -/
def searches : List Search := [
  ⟨(stateSeeds beneficiary mint policyHash).flatten, ID, [
    spelled 0x03af8c7a755d597f08b51180fe27c260c54ef45957877246270a9e20de4b37c2,
    spelled 0xfe893389483cddee5f47ecca9db4417ca2070ca6d4100aeb78b64bfcb1b1f475],
    vaultState⟩,
  ⟨(tokenSeeds vaultState).flatten, ID, [], vaultToken⟩,
  ⟨(stateSeeds beneficiary NATIVE_MINT policyHash).flatten, ID, [], stateOf NATIVE_MINT⟩,
  ⟨(tokenSeeds (stateOf NATIVE_MINT)).flatten, ID, [],
    tokenOf NATIVE_MINT⟩]

/-- What else is hashed: the name of the account. -/
def digests : List (Bytes × Bytes32) := [
  (ascii "account:BeneficiaryVault",
    spelled 0x0f136bf66ede3aa36f44c6e8030c8c47f22d09a459d7a3594e7a8f93a943394c)]

def chain : Chain := searchChain searches digests

def tokenAccount (owner : Pubkey) (amount : ℕ) : TokenAccount where
  mint
  owner
  amount
  delegate := none
  state := .initialized
  isNative := none
  delegatedAmount := 0
  closeAuthority := none

def genesis : Ledger BeneficiaryVault where
  program _ := none
  tokens := {
    account := fun k ↦
      if k = source then some (tokenAccount depositor 2400500)
      else if k = destination then some (tokenAccount beneficiary 0)
      else none
    mint := fun k ↦ if k = mint then some {
      mintAuthority := none, supply := 2400500, decimals := 9, isInitialized := true
      freezeAuthority := none } else none }

def release (now : UInt32) (amount : U64) : Tx Instruction where
  now := clockAt now
  signers := [beneficiary]
  instruction := .release {
    beneficiary, mint, vaultState, vaultToken, beneficiaryToken := destination } amount

/-- A deposit and two releases, one in the first period and one in the sixth. -/
def transactions : List (Tx Instruction) := [
  ⟨clockAt 1000, [depositor, beneficiary], .deposit {
    depositor, beneficiary, mint, depositorToken := source, vaultState, vaultToken }
    2400000 500 (clockAt 63072000) policyHash⟩,
  release 63073000 6000,
  release 76033000 10000]

def run : List (Event BeneficiaryVault Instruction) × Ledger BeneficiaryVault :=
  replay (program chain (market chain ID)) genesis transactions

/-- The depositor gives the rest of its tokens. -/
def gift : TransferChecked where
  source
  mint
  destination := vaultToken
  authority := depositor
  amount := 500
  decimals := 9

theorem given : ∃ tokens, run.2.tokens.transferChecked gift = some tokens ∧
    ∃ v, run.2.program vaultState = some v := by
  have htransfer : (run.2.tokens.transferChecked gift).isSome := by decide +kernel
  have hvault : (run.2.program vaultState).isSome := by decide +kernel
  obtain ⟨tokens, htokens⟩ := Option.isSome_iff_exists.mp htransfer
  exact ⟨tokens, htokens, Option.isSome_iff_exists.mp hvault⟩

end Sample

theorem schedule_sample : ∃ tr L v, L.program Sample.vaultState = some v ∧
    Schedule Sample.chain (market Sample.chain ID) tr L Sample.vaultState v := by
  obtain ⟨tokens, htokens, v, hv⟩ := Sample.given
  have hauthority : Sample.gift.authority ∉ unlisted :: Sample.searches.map Search.key := by
    decide +kernel
  have hexternal : (program Sample.chain (market Sample.chain ID)).external Sample.run.2 tokens :=
    ⟨_, htokens, fun hp ↦ hauthority (programAddress_mem hp)⟩
  have hrun : Reachable (program Sample.chain (market Sample.chain ID))
      (Sample.run.1 ++ [.external Sample.run.2 tokens]) { Sample.run.2 with tokens } :=
    ⟨Sample.genesis, fun _ ↦ rfl, (replay_run _ _ _).external hexternal⟩
  have hunsigned : Unsigned Sample.chain ID Sample.run.1 := replay_unsigned (by decide +kernel)
  have hclocked : Clocked Sample.run.1 := replay_clocked (by decide) (by decide)
  refine ⟨_, { Sample.run.2 with tokens }, v, hv,
    schedule ⟨rfl, market_respects⟩ hrun ?_ ?_ hv⟩
  · intro e he tx htx
    rcases List.mem_append.mp he with he | he
    · exact hunsigned e he tx htx
    · rw [List.mem_singleton.mp he] at htx
      simp [Event.tx?] at htx
  · exact ⟨by simpa using hclocked.nonneg, by simpa using hclocked.sorted⟩

end FundingVaults.Beneficiary
